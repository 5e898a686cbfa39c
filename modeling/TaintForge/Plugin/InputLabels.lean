import TaintForge.Dta.Shadow
import TaintForge.Plugin.FdTracking

/-!
# Labels for what the guest reads

The part of `qemu_unpacker.c` that labels the bytes a system call brings into the guest:
`pendingInputCall` runs when the guest enters a call and leaves a pending record, `inputSyscallRet`
runs when the call returns and labels the bytes that have arrived.

* `pendingInputAttachOfd`, `pendingInputCaptureLinear`, `pendingInputCaptureIov`: the record.
* `seedResourceByteLabels`, `shadowFillIncomplete`, `shadowUntaintRange`: labels for a range.
* `applyPendingInput`: the buffers in their order.

The calls that bring in bytes are followed on i386 and have their i386 numbers.  A record belongs to
the thread that made the call; the descriptors, the registry and the shadow memory are shared, so
that they may have changed when the call returns.
-/

namespace TaintForge

/-- `MAX_PENDING_IOV` -/
def maxPendingIov : ℕ := 1024

/-- `PROV_INCOMPLETE_SOURCE_IDENTITY` -/
def provIncompleteSourceIdentity : BitVec 64 := 32#64

/-- `pending_iov_t` -/
structure PendingIov where
  base : ℕ
  size : ℕ
  deriving DecidableEq, Repr

/-- The fields of `pending_input_t` that count when `source_identity_valid` is set. -/
structure SourceIdentity where
  resourceId : ℕ
  sourceOffset : ℕ
  advancesOfd : Bool
  deriving DecidableEq, Repr

/-- `pending_input_t` while it is active.  The list is as long as `iov_count` says. -/
structure PendingInput where
  syscallNum : ℕ
  fd : Int32
  taintSource : Bool
  requestedSize : ℕ
  iov : List PendingIov
  identity : Option SourceIdentity
  deriving DecidableEq, Repr

/-- A call as the guest enters it: its number and arguments, and the words of four bytes the plugin
can read in the guest memory. -/
structure InputCall where
  num : ℕ
  a1 : BitVec 64
  a2 : BitVec 64
  a3 : BitVec 64
  a4 : BitVec 64
  a5 : BitVec 64
  guestWord : ℕ → Option (BitVec 32)

/-- `(uint32_t)x` -/
def lowWord (x : BitVec 64) : ℕ := (x.setWidth 32).toNat

/-! ### Entering a call -/

/-- `pendingInputAttachOfd`: where the bytes come from, if the descriptor is bound to a resource. -/
def pendingInputAttachOfd (s : Tracker) (pending : PendingInput) (explicitOffset : Option ℕ) :
    PendingInput :=
  match provFdTableLookup s.table pending.fd with
  | none => pending
  | some ofd =>
    if ofd.record.resourceId = provResourceIdInvalid then pending
    else
      { pending with
        identity := some
          ⟨ofd.record.resourceId, explicitOffset.getD ofd.record.currentOffset, explicitOffset.isNone⟩ }

/-- `pendingInputCaptureLinear`: a call with one buffer. -/
def pendingInputCaptureLinear (s : Tracker) (num : ℕ) (fd : Int32) (buffer size : ℕ)
    (forceTaint : Bool) (explicitOffset : Option ℕ) : Option PendingInput :=
  if size = 0 then none
  else
    some (pendingInputAttachOfd s
      { syscallNum := num
        fd := fd
        taintSource := forceTaint || fdIsTaintSource s fd
        requestedSize := size
        iov := [⟨buffer, size⟩]
        identity := none } explicitOffset)

/-- The loop of `pendingInputCaptureIov` from the buffer `i` on: the buffers that are left and the
size of all, when each can be read and the size fits. -/
def readIovecs (guestWord : ℕ → Option (BitVec 32)) (iovAddr i requestedSize : ℕ) :
    ℕ → Option (List PendingIov × ℕ)
  | 0 => some ([], requestedSize)
  | count + 1 =>
    if i > (uint64Max - iovAddr) / 8 then none
    else
      match guestWord (iovAddr + i * 8), guestWord (iovAddr + i * 8 + 4) with
      | some base, some size =>
        if size.toNat > uint64Max - requestedSize then none
        else
          match readIovecs guestWord iovAddr (i + 1) (requestedSize + size.toNat) count with
          | some (rest, requestedSize) => some (⟨base.toNat, size.toNat⟩ :: rest, requestedSize)
          | none => none
      | _, _ => none

/-- `pendingInputCaptureIov`: a call with a list of buffers. -/
def pendingInputCaptureIov (s : Tracker) (num : ℕ) (fd : Int32)
    (guestWord : ℕ → Option (BitVec 32)) (iovAddr : ℕ) (iovCount : ℤ) (forceTaint : Bool) :
    Option PendingInput :=
  if iovCount ≤ 0 then none
  else if iovCount.toNat > maxPendingIov then none
  else
    match readIovecs guestWord iovAddr 0 0 iovCount.toNat with
    | none => none
    | some (iov, requestedSize) =>
      if requestedSize = 0 then none
      else
        some (pendingInputAttachOfd s
          { syscallNum := num
            fd := fd
            taintSource := forceTaint || fdIsTaintSource s fd
            requestedSize := requestedSize
            iov := iov
            identity := none } none)

/-- `readSocketcallArgs`: the block of six words. -/
def readSocketcallArgs (guestWord : ℕ → Option (BitVec 32)) (blockAddr : ℕ) :
    Option (List (BitVec 32)) :=
  (List.range 6).mapM fun i => guestWord (blockAddr + 4 * i)

/-- The part of `vpcuSyscall` about what a call brings into the guest. -/
def pendingInputCall (s : Tracker) (call : InputCall) : Option PendingInput :=
  if call.num = 3 then -- read
    pendingInputCaptureLinear s call.num (toFd call.a1) (lowWord call.a2) (lowWord call.a3) false none
  else if call.num = 180 then -- pread64
    let explicitOffset := lowWord call.a4 ||| lowWord call.a5 <<< 32
    pendingInputCaptureLinear s call.num (toFd call.a1) (lowWord call.a2) (lowWord call.a3) false
      (some explicitOffset)
  else if call.num = 145 then -- readv
    pendingInputCaptureIov s call.num (toFd call.a1) call.guestWord (lowWord call.a2)
      (call.a3.setWidth 32).toInt false
  else if call.num = 102 then -- socketcall
    match readSocketcallArgs call.guestWord call.a2.toNat with
    | some (fd :: buffer :: size :: _) =>
      -- recv and recvfrom
      if (call.a1.setWidth 32).toInt = 10 ∨ (call.a1.setWidth 32).toInt = 12 then
        pendingInputCaptureLinear s call.num ⟨⟨fd⟩⟩ buffer.toNat size.toNat true none
      else none
    | _ => none
  else if call.num = 371 then -- recvfrom
    pendingInputCaptureLinear s call.num (toFd call.a1) (lowWord call.a2) (lowWord call.a3) true none
  else none

/-! ### Labels for a range -/

/-- `dtaIncompleteUnknownLabel`: the unknown label with more reasons why it is not complete. -/
def dtaIncompleteUnknownLabel (registry : ProvRegistry) (reasons : BitVec 64) : ℕ × ProvRegistry :=
  if registry.unknownLabel = provLabelIdInvalid then (provLabelIdInvalid, registry)
  else provLabelMarkIncomplete registry registry.unknownLabel provCompleteAll reasons

/-- `shadowFillIncomplete` -/
def shadowFillIncomplete (registry : ProvRegistry) (shadow : ShadowMemory) (address size : ℕ)
    (reasons : BitVec 64) : Bool × ProvRegistry × ShadowMemory :=
  let (label, registry) := dtaIncompleteUnknownLabel registry reasons
  if label = provLabelIdInvalid then (false, registry, shadow)
  else
    let (stored, shadow) := shadowFillLabel registry shadow address size label
    (stored, registry, shadow)

/-- `shadowUntaintRange` -/
def shadowUntaintRange (registry : ProvRegistry) (shadow : ShadowMemory) (address size : ℕ) :
    ShadowMemory :=
  (shadowFillLabel registry shadow address size provLabelClean).2

/-- The root of a byte of a resource. -/
def resourceByteRoot (resourceId offset : ℕ) : ProvRootKey :=
  { kind := .resourceByte
    sourceId := BitVec.ofNat 64 resourceId
    discriminator := 0
    offset := BitVec.ofNat 64 offset
    semanticInstance := 0 }

/-- The label of a byte of a resource, registered when it is new. -/
def resourceByteLabel (registry : ProvRegistry) (resourceId offset : ℕ) : ℕ × ProvRegistry :=
  let (rootId, registry) := provRootIntern registry (resourceByteRoot resourceId offset)
  if rootId = provRootIdInvalid then (provLabelIdInvalid, registry)
  else provLabelFromRoot registry rootId .data

/-- The loop of `seedResourceByteLabels`.  What is left when a byte fails is marked as incomplete. -/
def seedResourceBytes (registry : ProvRegistry) (shadow : ShadowMemory) (guestAddress : ℕ)
    (resourceId resourceOffset : ℕ) : ℕ → Bool × ProvRegistry × ShadowMemory
  | 0 => (true, registry, shadow)
  | size + 1 =>
    let (label, registry) := resourceByteLabel registry resourceId resourceOffset
    let (stored, shadow) :=
      if label = provLabelIdInvalid then (false, shadow)
      else shadowStoreLabels registry shadow guestAddress [label]
    if stored = false then
      let (_, registry, shadow) :=
        shadowFillIncomplete registry shadow guestAddress (size + 1) provIncompleteSourceIdentity
      (false, registry, shadow)
    else
      seedResourceBytes registry shadow (guestAddress + 1) resourceId (resourceOffset + 1) size

/-- `seedResourceByteLabels`: a label of its own for each byte. -/
def seedResourceByteLabels (registry : ProvRegistry) (shadow : ShadowMemory)
    (guestAddress size resourceId resourceOffset : ℕ) : Bool × ProvRegistry × ShadowMemory :=
  if resourceId = provResourceIdInvalid then (false, registry, shadow)
  else if size = 0 then (true, registry, shadow)
  else if size - 1 > uint64Max - guestAddress ∨ size - 1 > uint64Max - resourceOffset then
    let (_, registry, shadow) :=
      shadowFillIncomplete registry shadow guestAddress size provIncompleteSourceIdentity
    (false, registry, shadow)
  else seedResourceBytes registry shadow guestAddress resourceId resourceOffset size

/-! ### Returning from a call -/

/-- One round of `applyPendingInput`: the labels for the bytes of one buffer. -/
def labelInputChunk (pending : PendingInput) (registry : ProvRegistry) (shadow : ShadowMemory)
    (destination chunk sourceDisplacement : ℕ) : Bool × ProvRegistry × ShadowMemory :=
  if pending.taintSource = false then
    (true, registry, shadowUntaintRange registry shadow destination chunk)
  else
    match pending.identity with
    | some identity =>
      if sourceDisplacement ≤ uint64Max - identity.sourceOffset then
        seedResourceByteLabels registry shadow destination chunk identity.resourceId
          (identity.sourceOffset + sourceDisplacement)
      else
        shadowFillIncomplete registry shadow destination chunk provIncompleteSourceIdentity
    | none => shadowFillIncomplete registry shadow destination chunk provIncompleteSourceIdentity

/-- The loop of `applyPendingInput`.  It answers whether nothing has been reported as failed. -/
def labelInputBuffers (pending : PendingInput) (registry : ProvRegistry) (shadow : ShadowMemory)
    (remaining sourceDisplacement : ℕ) : List PendingIov → Bool × ProvRegistry × ShadowMemory
  | [] => (true, registry, shadow)
  | iov :: rest =>
    if remaining = 0 then (true, registry, shadow)
    else
      let chunk := if iov.size > remaining then remaining else iov.size
      if chunk = 0 then
        labelInputBuffers pending registry shadow remaining sourceDisplacement rest
      else
        let (labelled, registry, shadow) :=
          labelInputChunk pending registry shadow iov.base chunk sourceDisplacement
        let (restLabelled, registry, shadow) :=
          labelInputBuffers pending registry shadow (remaining - chunk) (sourceDisplacement + chunk) rest
        (labelled && restLabelled, registry, shadow)

/-- `applyPendingInput`: label the bytes that have arrived and move the offset of the file.  It
answers whether nothing has been reported as failed. -/
def applyPendingInput (s : Tracker) (shadow : ShadowMemory) (pending : Option PendingInput) (num : ℕ)
    (ret : BitVec 64) : Bool × Tracker × ShadowMemory :=
  match pending with
  | none => (true, s, shadow)
  | some pending =>
    if pending.syscallNum ≠ num then (false, s, shadow)
    else if ret.toInt ≤ 0 then (true, s, shadow)
    else
      let completed := if ret.toNat > pending.requestedSize then pending.requestedSize else ret.toNat
      let (labelled, registry, shadow) :=
        labelInputBuffers pending s.registry shadow completed 0 pending.iov
      let s := { s with registry := registry }
      match pending.identity with
      | some identity =>
        if identity.advancesOfd ∧ completed ≠ 0 then
          let (advanced, table) := provFdTableAdvance s.table pending.fd completed
          (labelled && advanced, { s with table := table }, shadow)
        else (labelled, s, shadow)
      | none => (labelled, s, shadow)

/-- The part of `vcpuSyscallRet` about what the call has brought into the guest. -/
def inputSyscallRet (s : Tracker) (shadow : ShadowMemory) (pending : Option PendingInput) (num : ℕ)
    (ret : BitVec 64) : Bool × Tracker × ShadowMemory :=
  if syscallRetIsError ret then (true, s, shadow) else applyPendingInput s shadow pending num ret

end TaintForge
