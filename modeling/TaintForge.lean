import TaintForge.Plugin.Equiv.FdTracking
import TaintForge.Dse.Equiv.Relevance
import TaintForge.Dse.Slice
import TaintForge.Dse.Equiv.Trace
import TaintForge.Dse.Equiv.Generations
import TaintForge.Dse.Equiv.Strings
import TaintForge.Dcfg.Equiv.Summary
import TaintForge.Dta.Equiv.Shadow
import TaintForge.Env.Equiv.ManifestHistory
import TaintForge.Dse.Equiv.Solver
import TaintForge.Dse.Equiv.StringTransfer
import TaintForge.Dse.Equiv.ConditionsRoom
import TaintForge.Dse.Equiv.SymbolicMemory
import TaintForge.Dse.Equiv.SparseMovs
import TaintForge.Env.Equiv.EgressPolicy
import TaintForge.Dcfg.Equiv.Completions
import TaintForge.Env.Equiv.TargetStateOracle
import TaintForge.Plugin.Equiv.Pages
import TaintForge.Plugin.Equiv.Dump
import TaintForge.Rebuilder.Equiv.ElfBuilder
import TaintForge.Dse.Equiv.RootLineage
import TaintForge.Plugin.Equiv.InputCalls
import TaintForge.Env.Equiv.QemuStraceParser
import TaintForge.Dse.Equiv.AuxBuffers
import TaintForge.Env.Equiv.TransparentLogger
import TaintForge.Env.Equiv.ElfTarget
import TaintForge.Env.Equiv.RootfsDiff
import TaintForge.Env.Equiv.ListenerPlan
import TaintForge.Env.Equiv.StubGenerator
import TaintForge.Env.Equiv.ProgressOracle
import TaintForge.Env.Equiv.ProgressDecision
import TaintForge.Env.Equiv.EnvironmentSnapshot
import TaintForge.Env.Equiv.SessionHistory
import TaintForge.Env.Equiv.SessionVerify
import TaintForge.Env.Equiv.PrebuiltRunner
