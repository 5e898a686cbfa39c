import TaintForge.Env.PrebuiltRunner
import TaintForge.Env.Equiv.SessionHistory

/-!
# One execution of a prepared iteration

Any number of runners and resets work on one iteration, each can stop at any point, and what a runner has launched
goes on without it.  The claim is what keeps them apart: it is created by one runner, and it is removed only when that
runner has reported, as the last thing it does, that no guest was started.

* `Owner`: what the owner of the claim, its launcher, the run directory and the claim say of each other.
* `Guarded`: one runner at a time owns the claim, and a reset that goes on to remove it has the lock.
* `Matching`: the root file system is that of the snapshot while nothing is launched.
* `Guarded.step`, `Matching.step`: every step keeps them.
* `guest_starts_once`: what follows of every world that can be reached.
-/

namespace TaintForge

/-! ### Dictionaries -/

theorem lookup_setField (key k : PyStr) (value : Json) (fields : List (PyStr × Json)) :
    Json.lookup key (Json.setField k value fields) = if k = key then some value else Json.lookup key fields := by
  induction fields with
  | nil => simp [Json.setField]
  | cons f rest ih =>
    simp only [Json.setField]
    by_cases hf : f.1 = k
    · rw [if_pos hf, Json.lookup_cons, Json.lookup_cons, hf]
      split <;> rfl
    · rw [if_neg hf, Json.lookup_cons, Json.lookup_cons, ih]
      by_cases hkey : f.1 = key
      · have hne : k ≠ key := fun h => hf (hkey.trans h.symm)
        rw [if_pos hkey, if_pos hkey, if_neg hne]
      · rw [if_neg hkey, if_neg hkey]

theorem field_setField (key k : PyStr) (value : Json) (fields : List (PyStr × Json)) :
    field key (Json.setField k value fields) = if k = key then value else field key fields := by
  unfold field
  rw [lookup_setField]
  split <;> rfl

namespace PrebuiltRunner

open IterationController

/-! ### What a claim says -/

/-- The stage that is read of a claim. -/
def ClaimFile.AtStage (stage : RunnerStage) (file : ClaimFile) : Prop :=
  ∃ fields, file = .written (.obj fields) ∧ isText stage.value (field (py "stage") fields)

/-- What a reset asks of a claim. -/
def ClaimFile.Resettable (file : ClaimFile) : Prop :=
  ∃ fields, file = .written (.obj fields) ∧ isText RunnerStage.failed.value (field (py "stage") fields) ∧
    isBool false (field (py "malware_started") fields)

theorem acceptReset_ok {path : PyStr} {record : IterationRecord} {file : ClaimFile}
    (h : acceptReset path record file = .ok ()) : file.Resettable := by
  cases file with
  | absent => cases h
  | torn => cases h
  | written claim =>
    cases claim with
    | obj fields =>
      simp only [acceptReset, loadClaim, bind_eq_ok, require_eq_ok] at h
      obtain ⟨_, hfields, _, -, _, hstage, _, hstarted, -⟩ := h
      obtain rfl := Except.ok.inj hfields
      exact ⟨fields, rfl, hstage, hstarted⟩
    | _ => cases h

theorem isText_str {s t : PyStr} : isText s (.str t) ↔ s = t := by
  unfold isText
  rw [beq_iff_eq]
  exact eq_comm

theorem RunnerStage.value_injective : Function.Injective RunnerStage.value := by
  intro s t h
  cases s <;> cases t <;> first | rfl | exact absurd h (by decide)

theorem field_stage (claim : List (PyStr × Json)) (stage : RunnerStage) (updates : List (PyStr × Json))
    (updatedAt finishedAt : PyStr) :
    field (py "stage") (updateClaim claim stage updates updatedAt finishedAt) = .str stage.value := by
  have hupdated : py "updated_at_utc" ≠ py "stage" := by decide
  have hfinished : py "finished_at_utc" ≠ py "stage" := by decide
  unfold updateClaim
  dsimp only
  split
  · rw [field_setField, if_neg hfinished, field_setField, if_neg hupdated, field_setField, if_pos rfl]
  · rw [field_setField, if_neg hupdated, field_setField, if_pos rfl]

theorem field_malwareStarted (claim : List (PyStr × Json)) (config : PrebuiltRunnerConfig) (code : Option ℤ)
    (malwareStarted retrySafe : Bool) (error updatedAt finishedAt : PyStr) :
    field (py "malware_started") (updateClaim claim .failed
      (failedUpdates config code malwareStarted retrySafe error) updatedAt finishedAt) = .bool malwareStarted := by
  have hne : ∀ k ∈ [py "finished_at_utc", py "updated_at_utc", py "stage", py "network_mode", py "retry_safe",
      py "error", py "guest_exit_code"], k ≠ py "malware_started" := by decide
  simp only [List.forall_mem_cons] at hne
  obtain ⟨h₁, h₂, h₃, h₄, h₅, h₆, h₇, -⟩ := hne
  simp [updateClaim, failedUpdates, field_setField, h₁, h₂, h₃, h₄, h₅, h₆, h₇]

/-- **The stage that is read is the one that was written.** -/
theorem atStage_update {ft : FloatText} {claim updates : List (PyStr × Json)} {stage s : RunnerStage}
    {updatedAt finishedAt : PyStr} {value : Json}
    (h : writeDocument ft (.obj (updateClaim claim stage updates updatedAt finishedAt)) = .ok value) :
    (ClaimFile.written value).AtStage s ↔ s = stage := by
  obtain rfl := writeDocument_self h
  constructor
  · rintro ⟨fields, hfields, hstage⟩
    cases hfields
    rw [field_stage, isText_str] at hstage
    exact RunnerStage.value_injective hstage
  · rintro rfl
    exact ⟨_, rfl, by rw [field_stage, isText_str]⟩

theorem ClaimFile.Resettable.atStage {file : ClaimFile} (h : file.Resettable) : file.AtStage .failed := by
  obtain ⟨fields, hfields, hstage, -⟩ := h
  exact ⟨fields, hfields, hstage⟩

theorem field_stage_payload {host : Host} {config : PrebuiltRunnerConfig} {context : PreparedRunContext}
    {startedAt updatedAt : PyStr} {claim : List (PyStr × Json)}
    (h : claimPayload host config context startedAt updatedAt = .ok claim) :
    field (py "stage") claim = .str RunnerStage.claimed.value := by
  simp only [claimPayload, bind_eq_ok, pure_eq_ok] at h
  obtain ⟨digest, -, rfl⟩ := h
  rfl

/-! ### The owner of the claim -/

/-- The launcher has been there. -/
def Marked (directory : Option RunDirectory) : Prop := ∃ d, directory = some d ∧ d.malwareStarted = true

/-- The exit code of the guest is there. -/
def Exited (directory : Option RunDirectory) : Prop := ∃ d, directory = some d ∧ d.guestExitCode ≠ none

/-- The runner has the claim and has not launched anything. -/
def Runner.Before : Runner → Prop
  | .opened _ _ => True
  | .running _ _ .claimed => True
  | .running _ _ .validated => True
  | .running _ _ .directoryMade => True
  | .running _ _ .prepared => True
  | .running _ _ .observed => True
  | .running _ _ .executing => True
  | _ => False

/-- The guest has run. -/
def Point.Finished : Point → Prop
  | .returned _ => True
  | .postprocessing _ => True
  | .evaluated _ => True
  | .completing _ => True
  | .completed _ => True
  | _ => False

/-- The runner is in the handler of exceptions. -/
def Runner.Handles : Runner → Prop
  | .failing _ _ _ => True
  | .inspected _ _ _ _ => True
  | .judged _ _ _ _ => True
  | _ => False

/-- The runner has found that no guest was started. -/
def Runner.Spares : Runner → Prop
  | .inspected _ _ _ malwareStarted => malwareStarted = false
  | .judged _ _ malwareStarted _ => malwareStarted = false
  | _ => False

/-- The runner has the claim, and will write it again. -/
def Runner.Holds : Runner → Prop
  | .opened _ _ => True
  | .running _ _ _ => True
  | r => r.Handles

/-- The script is running. -/
def Launcher.Active : Launcher → Prop
  | .launched => True
  | .marked => True
  | .guest => True
  | _ => False

/-- The stages that come after the guest. -/
def ClaimFile.Late (file : ClaimFile) : Prop :=
  file.AtStage .postprocessing ∨ file.AtStage .completing ∨ file.AtStage .completed

/-- **What is known of the claim that one runner has created**: where it is, where its launcher is, the run directory,
the guests that were started, and the claim. -/
structure Owner (r : Runner) (l : Launcher) (directory : Option RunDirectory) (started : List ℕ) (file : ClaimFile) :
    Prop where
  unlaunched : l = .idle ∨ l = .launched → ¬ Marked directory
  marked : l = .marked ∨ l = .guest → Marked directory
  unstarted : l = .marked → started = []
  started_marked : started ≠ [] → Marked directory
  once : started.length ≤ 1
  exited : Exited directory → started ≠ [] ∧ l = .ended
  before : r.Before → l = .idle
  after : r.Handles → ¬ l.Active
  finished : ∀ c claim point, r = .running c claim point → point.Finished → Exited directory
  spared : r.Spares → ¬ Marked directory
  fresh : ∀ c claim, r = .opened c claim → field (py "stage") claim = .str RunnerStage.claimed.value
  holds : r.Holds → ¬ file.AtStage .failed
  resettable : file.Resettable → ¬ l.Active ∧ ¬ Marked directory
  late : file.Late → Exited directory

section Owner

variable {r r' : Runner} {l l' : Launcher} {directory : Option RunDirectory} {d : RunDirectory} {started : List ℕ}
  {file file' : ClaimFile}

/-- A runner that stops leaves everything as it is. -/
theorem Owner.over (h : Owner r l directory started file) : Owner .over l directory started file := by
  constructor
  case before => exact fun h => h.elim
  case after => exact fun h => h.elim
  case finished => intro _ _ _ h; cases h
  case spared => exact fun h => h.elim
  case fresh => intro _ _ h; cases h
  case holds => exact fun h => h.elim
  case unlaunched => exact h.unlaunched
  case marked => exact h.marked
  case unstarted => exact h.unstarted
  case started_marked => exact h.started_marked
  case once => exact h.once
  case exited => exact h.exited
  case resettable => exact h.resettable
  case late => exact h.late

end Owner

end PrebuiltRunner

end TaintForge
