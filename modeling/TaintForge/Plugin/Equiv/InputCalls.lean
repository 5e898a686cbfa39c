import TaintForge.Plugin.Equiv.FdTracking
import TaintForge.Plugin.Equiv.InputLabels

/-!
# Input labels cover the bytes that are read

* `ReadRequest`, `InputCall.request`: what a call of the guest asks for.
* `pendingInputCall_eq`: the record that is left pending is that request.
* `InputApplied`: what is owed when the call returns.
* `inputSyscallRet_applied`: the first bytes of the buffers are labelled, with their offsets, and the
  offset of the file moves by their number.
-/

namespace TaintForge

/-! ### Requests -/

/-- What a call asks for: bytes of a descriptor into some buffers, at a position of its own or at the
offset of the file.  `socket` says that the call is about sockets only. -/
structure ReadRequest where
  fd : Int32
  buffers : List PendingIov
  position : Option ℕ
  socket : Bool

/-- The addresses of the buffers, one after another. -/
def ReadRequest.bytes (request : ReadRequest) : List ℕ := request.buffers.flatMap PendingIov.bytes

/-- The buffer `i` of an array. -/
def iovecAt (guestWord : ℕ → Option (BitVec 32)) (iovAddr i : ℕ) : Option PendingIov := do
  let base ← guestWord (iovAddr + i * 8)
  let size ← guestWord (iovAddr + i * 8 + 4)
  return ⟨base.toNat, size.toNat⟩

/-- The buffers of an array. -/
def iovecs (guestWord : ℕ → Option (BitVec 32)) (iovAddr : ℕ) (count : ℤ) : Option (List PendingIov) :=
  if count < 0 ∨ maxPendingIov < count then none
  else (List.range count.toNat).mapM (iovecAt guestWord iovAddr)

/-- What the guest asks for with `read`, `pread64`, `readv`, `recv` and `recvfrom`. -/
def InputCall.request (call : InputCall) : Option ReadRequest :=
  if call.num = 3 then
    some ⟨toFd call.a1, [⟨lowWord call.a2, lowWord call.a3⟩], none, false⟩
  else if call.num = 180 then
    some ⟨toFd call.a1, [⟨lowWord call.a2, lowWord call.a3⟩],
      some (lowWord call.a4 + 2 ^ 32 * lowWord call.a5), false⟩
  else if call.num = 145 then
    (iovecs call.guestWord (lowWord call.a2) (call.a3.setWidth 32).toInt).map fun buffers =>
      ⟨toFd call.a1, buffers, none, false⟩
  else if call.num = 102 then
    match readSocketcallArgs call.guestWord call.a2.toNat with
    | some (fd :: buffer :: size :: _) =>
      if call.a1.setWidth 32 = 10#32 ∨ call.a1.setWidth 32 = 12#32 then
        some ⟨⟨⟨fd⟩⟩, [⟨buffer.toNat, size.toNat⟩], none, true⟩
      else none
    | _ => none
  else if call.num = 371 then
    some ⟨toFd call.a1, [⟨lowWord call.a2, lowWord call.a3⟩], none, true⟩
  else none

/-- The number of bytes a call returned, none when it failed. -/
def returnedBytes (ret : BitVec 64) : ℕ := if syscallRetIsError ret then 0 else ret.toInt.toNat

/-- The addresses of the bytes that have arrived: the first ones of the buffers. -/
def ReadRequest.arrived (request : ReadRequest) (ret : BitVec 64) : List ℕ :=
  request.bytes.take (returnedBytes ret)

/-- The file a descriptor is bound to. -/
def PosixFds.fileOf (p : PosixFds) (fd : Int32) : Option OpenFile := do
  let id ← p.fds fd
  p.files[id]?

/-- The resource the bytes come from and where the first one is. -/
def ReadRequest.start (request : ReadRequest) (p : PosixFds) : Option (ℕ × ℕ) := do
  let file ← p.fileOf request.fd
  if file.resourceId = provResourceIdInvalid then none
  else some (file.resourceId, request.position.getD file.offset)

/-! ### The pending record -/

/-- The record of a request. -/
def ReadRequest.pending (request : ReadRequest) (s : Tracker) (num : ℕ) : PendingInput :=
  pendingInputAttachOfd s
    { syscallNum := num
      fd := request.fd
      taintSource := request.socket || fdIsTaintSource s request.fd
      requestedSize := request.bytes.length
      iov := request.buffers
      identity := none } request.position

/-- The buffers of an array are read one by one, and their sizes do not overflow. -/
theorem readIovecs_eq (guestWord : ℕ → Option (BitVec 32)) {iovAddr : ℕ} (haddr : iovAddr < 2 ^ 32)
    (count i requestedSize : ℕ) (hcount : i + count ≤ maxPendingIov) (hsize : requestedSize ≤ i * 2 ^ 32) :
    readIovecs guestWord iovAddr i requestedSize count =
      ((List.range' i count).mapM (iovecAt guestWord iovAddr)).map fun buffers =>
        (buffers, requestedSize + (buffers.flatMap PendingIov.bytes).length) := by
  have hmax : uint64Max = 2 ^ 64 - 1 := rfl
  have hlimit : maxPendingIov = 1024 := rfl
  induction count generalizing i requestedSize with
  | zero => rfl
  | succ count ih =>
    rw [readIovecs, if_neg (by omega), List.range'_succ, List.mapM_cons, iovecAt]
    cases hbase : guestWord (iovAddr + i * 8) with
    | none => rfl
    | some base =>
      cases hword : guestWord (iovAddr + i * 8 + 4) with
      | none => rfl
      | some size =>
        have hlt := size.isLt
        dsimp only
        rw [if_neg (by omega), ih (i + 1) (requestedSize + size.toNat) (by omega) (by omega)]
        cases (List.range' (i + 1) count).mapM (iovecAt guestWord iovAddr) with
        | none => rfl
        | some rest =>
          show some _ = some _
          dsimp only
          rw [List.flatMap_cons, List.length_append, PendingIov.bytes, List.length_range',
            Nat.add_assoc]

/-- What a request leaves pending. -/
def ReadRequest.leaves (request : ReadRequest) (s : Tracker) (num : ℕ) : Option PendingInput :=
  if request.bytes = [] then none else some (request.pending s num)

theorem ReadRequest.bytes_singleton (fd : Int32) (buffer size : ℕ) (position : Option ℕ) (socket : Bool) :
    (ReadRequest.mk fd [⟨buffer, size⟩] position socket).bytes = List.range' buffer size := by
  rw [ReadRequest.bytes, List.flatMap_singleton, PendingIov.bytes]

theorem pendingInputCaptureLinear_eq (s : Tracker) (num : ℕ) (fd : Int32) (buffer size : ℕ)
    (socket : Bool) (position : Option ℕ) :
    pendingInputCaptureLinear s num fd buffer size socket position =
      (ReadRequest.mk fd [⟨buffer, size⟩] position socket).leaves s num := by
  rw [pendingInputCaptureLinear, ReadRequest.leaves, ReadRequest.pending, ReadRequest.bytes_singleton,
    List.length_range']
  by_cases hzero : size = 0
  · rw [if_pos hzero, if_pos (by rw [hzero]; rfl)]
  · rw [if_neg hzero, if_neg fun hnil => hzero (List.range'_eq_nil_iff.mp hnil)]

theorem pendingInputCaptureIov_eq (s : Tracker) (num : ℕ) (fd : Int32)
    (guestWord : ℕ → Option (BitVec 32)) {iovAddr : ℕ} (haddr : iovAddr < 2 ^ 32) (count : ℤ) :
    pendingInputCaptureIov s num fd guestWord iovAddr count false =
      (iovecs guestWord iovAddr count).bind fun buffers =>
        (ReadRequest.mk fd buffers none false).leaves s num := by
  have hlimit : maxPendingIov = 1024 := rfl
  unfold pendingInputCaptureIov iovecs
  by_cases hneg : count ≤ 0
  · rw [if_pos hneg]
    by_cases hzero : count = 0
    · rw [hzero]
      rfl
    · rw [if_pos (Or.inl (by omega))]
      rfl
  rw [if_neg hneg]
  by_cases hbig : count.toNat > maxPendingIov
  · rw [if_pos hbig, if_pos (Or.inr (by omega))]
    rfl
  rw [if_neg hbig, if_neg (by omega), readIovecs_eq guestWord haddr _ 0 0 (by omega) le_rfl,
    List.range_eq_range']
  cases (List.range' 0 count.toNat).mapM (iovecAt guestWord iovAddr) with
  | none => rfl
  | some buffers =>
    show (if 0 + (buffers.flatMap PendingIov.bytes).length = 0 then none else _) =
      ReadRequest.leaves _ s num
    rw [Nat.zero_add, ReadRequest.leaves, ReadRequest.bytes, ReadRequest.pending, ReadRequest.bytes]
    by_cases hnil : buffers.flatMap PendingIov.bytes = []
    · rw [if_pos hnil, if_pos (by rw [hnil]; rfl)]
    · rw [if_neg hnil, if_neg fun hzero => hnil (List.length_eq_zero_iff.mp hzero)]

/-- **The record is the request.** -/
theorem pendingInputCall_eq (s : Tracker) (call : InputCall) :
    pendingInputCall s call = call.request.bind fun request => request.leaves s call.num := by
  unfold pendingInputCall InputCall.request
  by_cases hread : call.num = 3
  · rw [if_pos hread, if_pos hread]
    exact pendingInputCaptureLinear_eq s call.num _ _ _ false none
  rw [if_neg hread, if_neg hread]
  by_cases hpread : call.num = 180
  · have hoffset : lowWord call.a4 ||| lowWord call.a5 <<< 32 =
        lowWord call.a4 + 2 ^ 32 * lowWord call.a5 := by
      have hlt : lowWord call.a4 < 2 ^ 32 := (call.a4.setWidth 32).isLt
      rw [Nat.or_comm, ← Nat.shiftLeft_add_eq_or_of_lt hlt, Nat.shiftLeft_eq]
      omega
    rw [if_pos hpread, if_pos hpread, hoffset]
    exact pendingInputCaptureLinear_eq s call.num _ _ _ false _
  rw [if_neg hpread, if_neg hpread]
  by_cases hreadv : call.num = 145
  · rw [if_pos hreadv, if_pos hreadv, Option.bind_map]
    exact pendingInputCaptureIov_eq s call.num _ call.guestWord (call.a2.setWidth 32).isLt _
  rw [if_neg hreadv, if_neg hreadv]
  by_cases hsocketcall : call.num = 102
  · rw [if_pos hsocketcall, if_pos hsocketcall]
    have hten : (call.a1.setWidth 32).toInt = 10 ↔ call.a1.setWidth 32 = 10#32 :=
      ⟨fun h => BitVec.eq_of_toInt_eq h, fun h => by rw [h]; rfl⟩
    have htwelve : (call.a1.setWidth 32).toInt = 12 ↔ call.a1.setWidth 32 = 12#32 :=
      ⟨fun h => BitVec.eq_of_toInt_eq h, fun h => by rw [h]; rfl⟩
    simp only [hten, htwelve]
    rcases readSocketcallArgs call.guestWord call.a2.toNat with _ | _ | ⟨fd, _ | ⟨buffer, _ | ⟨size, rest⟩⟩⟩
    · rfl
    · rfl
    · rfl
    · rfl
    · dsimp only
      split
      · exact pendingInputCaptureLinear_eq s call.num _ _ _ true none
      · rfl
  rw [if_neg hsocketcall, if_neg hsocketcall]
  by_cases hrecvfrom : call.num = 371
  · rw [if_pos hrecvfrom, if_pos hrecvfrom]
    exact pendingInputCaptureLinear_eq s call.num _ _ _ true none
  · rw [if_neg hrecvfrom, if_neg hrecvfrom]
    rfl

/-- Looking for the file leaves the rest of the record. -/
theorem ReadRequest.pending_fields (request : ReadRequest) (s : Tracker) (num : ℕ) :
    request.pending s num =
      { syscallNum := num
        fd := request.fd
        taintSource := request.socket || fdIsTaintSource s request.fd
        requestedSize := request.bytes.length
        iov := request.buffers
        identity := (request.pending s num).identity } := by
  unfold ReadRequest.pending pendingInputAttachOfd
  split
  · rfl
  · split <;> rfl

theorem ReadRequest.pending_num (request : ReadRequest) (s : Tracker) (num : ℕ) :
    (request.pending s num).syscallNum = num :=
  congrArg PendingInput.syscallNum (request.pending_fields s num)

/-- The record says where the bytes begin, and whether the offset of the file moves. -/
theorem ReadRequest.pending_identity (request : ReadRequest) {s : Tracker} {p : PosixFds}
    (h : FdRefines s.table p) (num : ℕ) :
    (request.pending s num).identity = (request.start p).map fun start =>
      ⟨start.1, start.2, request.position.isNone⟩ := by
  have hlookup := lookup_eq h request.fd
  unfold ReadRequest.pending pendingInputAttachOfd ReadRequest.start PosixFds.fileOf
  dsimp only
  cases hfd : p.fds request.fd with
  | none =>
    rw [hfd] at hlookup
    rw [hlookup]
    rfl
  | some id =>
    rw [hfd] at hlookup
    obtain ⟨ofd, -, hlookup, hfile, -⟩ := hlookup
    rw [hlookup]
    simp only [Option.bind_eq_bind, Option.bind_some, hfile]
    have hresource : ofd.file.resourceId = ofd.resourceId := rfl
    rw [hresource]
    split <;> rfl

theorem ReadRequest.pending_start (request : ReadRequest) {s : Tracker} {p : PosixFds}
    (h : FdRefines s.table p) (num : ℕ) : (request.pending s num).start = request.start p := by
  rw [PendingInput.start, request.pending_identity h num]
  cases request.start p <;> rfl

/-- A position has 64 bits. -/
theorem InputCall.request_position_lt {call : InputCall} {request : ReadRequest}
    (h : call.request = some request) {position : ℕ} (hposition : request.position = some position) :
    position < 2 ^ 64 := by
  have hlow : lowWord call.a4 < 2 ^ 32 := (call.a4.setWidth 32).isLt
  have hhigh : lowWord call.a5 < 2 ^ 32 := (call.a5.setWidth 32).isLt
  unfold InputCall.request at h
  split at h
  · cases h
    cases hposition
  split at h
  · cases h
    cases hposition
    omega
  split at h
  · obtain ⟨buffers, -, rfl⟩ := Option.map_eq_some_iff.mp h
    cases hposition
  split at h
  · split at h
    · split at h
      · cases h
        cases hposition
      · cases h
    · cases h
  split at h
  · cases h
    cases hposition
  · cases h

theorem ReadRequest.start_lt {call : InputCall} {request : ReadRequest} {p : PosixFds}
    (hcall : call.request = some request) (hoffsets : ∀ file ∈ p.files, file.offset < 2 ^ 64)
    {resourceId offset : ℕ} (h : request.start p = some (resourceId, offset)) : offset < 2 ^ 64 := by
  unfold ReadRequest.start PosixFds.fileOf at h
  simp only [Option.bind_eq_bind, Option.bind_eq_some_iff] at h
  obtain ⟨file, ⟨id, -, hfile⟩, h⟩ := h
  split at h
  · cases h
  · obtain ⟨-, rfl⟩ := Prod.mk.inj (Option.some.inj h)
    cases hposition : request.position with
    | none => exact hoffsets file (List.mem_of_getElem? hfile)
    | some position => exact InputCall.request_position_lt hcall hposition

/-! ### Returning from a call -/

/-- The descriptors after some bytes have arrived: the offset of the file has moved by their number,
unless the call had a position of its own. -/
def ReadRequest.moved (request : ReadRequest) (start : Option (ℕ × ℕ)) (arrived : ℕ) (p : PosixFds) :
    Option PosixFds :=
  if start.isSome ∧ request.position = none ∧ arrived ≠ 0 then p.step (.advance request.fd arrived)
  else some p

/-- What is owed when a call returns: `arrived` are the addresses of the bytes it brought, `start` is
where the first one comes from. -/
structure InputApplied (request : ReadRequest) (taintSource : Bool) (start : Option (ℕ × ℕ))
    (arrived : List ℕ) (s' : Tracker) (p' : PosixFds) (shadow : ShadowMemory) (mem : ℕ → ℕ)
    (out : Bool × Tracker × ShadowMemory) : Prop where
  /-- The bytes that have arrived are labelled, and no others are. -/
  labels : ∃ mem', ShadowRefines out.2.2 mem' ∧
    Overwrites (out.1 = true) mem mem' arrived (ReadLabel out.2.1.registry taintSource start)
  /-- Labels keep their meaning. -/
  keeps : KeepsIds s'.registry out.2.1.registry
  /-- The offset moves by the number of the bytes. -/
  offset : match request.moved start arrived.length p' with
    | some p'' => FdRefines out.2.1.table p''
    | none => FdRefines out.2.1.table p' ∧ out.1 = false
  /-- Nothing else changes. -/
  frame : out.2.1 = { s' with table := out.2.1.table, registry := out.2.1.registry }
  /-- A call that brings nothing changes nothing. -/
  nothing : arrived = [] → out = (true, s', shadow)
  /-- A failure is reported when memory or identifiers have run out, when the bytes cannot be named, or
  when the descriptor cannot move. -/
  reported : out.1 = false → RunsOut s'.registry shadow out.2.1.registry out.2.2 ∨
    Unnamable s'.registry start arrived.length ∨ request.moved start arrived.length p' = none

variable {s s' : Tracker} {shadow : ShadowMemory} {mem : ℕ → ℕ} {p p' : PosixFds}

theorem InputApplied.of_nothing (request : ReadRequest) (taintSource : Bool) (start : Option (ℕ × ℕ))
    (hp' : FdRefines s'.table p') (hshadow : ShadowRefines shadow mem) :
    InputApplied request taintSource start [] s' p' shadow mem (true, s', shadow) where
  labels := ⟨mem, hshadow, .nil mem⟩
  keeps := .refl _
  offset := by
    rw [ReadRequest.moved, if_neg fun h => h.2.2 rfl]
    exact hp'
  frame := rfl
  nothing _ := rfl
  reported := nofun

/-- The labels of the bytes and the offset of the file, each with its report. -/
theorem InputApplied.of_labels {request : ReadRequest} {taintSource : Bool} {start : Option (ℕ × ℕ)}
    {arrived : List ℕ} {labelled advanced : Bool} {registry : ProvRegistry} {shadow' : ShadowMemory}
    {table : ProvFdTable} (harrived : arrived ≠ [])
    (hlabels : LabelsRange s'.registry shadow mem arrived
      (fun r i label => ReadLabel r taintSource start i label)
      (Unnamable s'.registry start arrived.length) (labelled, registry, shadow'))
    (hoffset : match request.moved start arrived.length p' with
      | some p'' => FdRefines table p'' ∧ advanced = true
      | none => FdRefines table p' ∧ advanced = false) :
    InputApplied request taintSource start arrived s' p' shadow mem
      (labelled && advanced, { s' with table := table, registry := registry }, shadow') where
  labels := by
    obtain ⟨mem', h', hwritten⟩ := hlabels.labels
    exact ⟨mem', h', hwritten.mono (fun hok => (Bool.and_eq_true_iff.mp hok).1) fun k l hl => hl⟩
  keeps := hlabels.step.keeps
  offset := by
    cases hmoved : request.moved start arrived.length p' with
    | some p'' =>
      rw [hmoved] at hoffset
      exact hoffset.1
    | none =>
      rw [hmoved] at hoffset
      refine ⟨hoffset.1, ?_⟩
      rw [hoffset.2, Bool.and_false]
  frame := rfl
  nothing h := absurd h harrived
  reported hfalse := by
    rcases Bool.and_eq_false_iff.mp hfalse with hfalse | hfalse
    · exact (hlabels.reported hfalse).imp_right .inl
    · cases hmoved : request.moved start arrived.length p' with
      | some p'' =>
        rw [hmoved, hfalse] at hoffset
        cases hoffset.2
      | none => exact .inr (.inr rfl)

/-- Bytes that have arrived are labelled, then the offset moves. -/
theorem applyPendingInput_applied {request : ReadRequest} (hp : FdRefines s.table p)
    (hp' : FdRefines s'.table p') (hregistry : RegistryReachable s'.registry)
    (hshadow : ShadowRefines shadow mem) {num : ℕ} {ret : BitVec 64} (hret : 0 < ret.toInt)
    (hbytes : request.bytes ≠ [])
    (hoffset : ∀ resourceId offset, request.start p = some (resourceId, offset) → offset < 2 ^ 64)
    (hguest : ∀ a ∈ request.bytes.take ret.toNat, a < 2 ^ 32) :
    InputApplied request (request.socket || fdIsTaintSource s request.fd) (request.start p)
      (request.bytes.take ret.toNat) s' p' shadow mem
      (applyPendingInput s' shadow (some (request.pending s num)) num ret) := by
  have hidentity := request.pending_identity hp num
  have hstart := request.pending_start hp num
  have hfields := request.pending_fields s num
  have hnum := request.pending_num s num
  generalize request.pending s num = pending at hidentity hstart hfields hnum ⊢
  have hpositive : 0 < ret.toNat := by
    have htoInt := BitVec.toInt_eq_toNat_cond ret
    split_ifs at htoInt <;> omega
  have hlength : 0 < request.bytes.length := List.length_pos_of_ne_nil hbytes
  have hcompleted : (if ret.toNat > request.bytes.length then request.bytes.length else ret.toNat) =
      (request.bytes.take ret.toNat).length := by
    rw [List.length_take]
    split_ifs <;> omega
  have harrived : request.bytes.take ret.toNat ≠ [] := by
    refine List.ne_nil_of_length_pos ?_
    rw [List.length_take]
    omega
  have htake : request.bytes.take (request.bytes.take ret.toNat).length = request.bytes.take ret.toNat := by
    rw [List.length_take, ← List.take_eq_take_min]
  generalize request.bytes.take ret.toNat = arrived at *
  have hlabels := labelInputBuffers_labels pending (hstart ▸ hoffset) request.buffers hregistry hshadow
    arrived.length 0 (by rwa [← ReadRequest.bytes, htake])
  rw [← ReadRequest.bytes, htake, hstart] at hlabels
  simp only [Nat.zero_add] at hlabels
  have hfd : pending.fd = request.fd := congrArg PendingInput.fd hfields
  have hsource : pending.taintSource = (request.socket || fdIsTaintSource s request.fd) :=
    congrArg PendingInput.taintSource hfields
  have hsize : pending.requestedSize = request.bytes.length := congrArg PendingInput.requestedSize hfields
  have hiov : pending.iov = request.buffers := congrArg PendingInput.iov hfields
  rw [hsource] at hlabels
  unfold applyPendingInput
  dsimp only
  rw [if_neg (not_not.mpr hnum), if_neg (Int.not_le.mpr hret), hsize, hcompleted, hiov, hfd, hidentity]
  generalize labelInputBuffers pending s'.registry shadow arrived.length 0 request.buffers = out
    at hlabels ⊢
  obtain ⟨labelled, registry, shadow'⟩ := out
  have hstay : request.moved (request.start p) arrived.length p' = some p' →
      InputApplied request (request.socket || fdIsTaintSource s request.fd) (request.start p) arrived s'
        p' shadow mem (labelled, { s' with registry := registry }, shadow') := by
    intro hmoved
    rw [← Bool.and_true labelled]
    refine .of_labels harrived hlabels ?_
    rw [hmoved]
    exact ⟨hp', rfl⟩
  cases hs : request.start p with
  | none =>
    rw [hs] at hstay
    exact hstay (if_neg fun h => Bool.false_ne_true h.1)
  | some start =>
    rw [hs] at hstay hlabels
    dsimp only [Option.map_some]
    split
    · rename_i hadvances
      have hmove := hp'.moveOffset request.fd fun offset =>
        if arrived.length > uint64Max - offset then none else some (offset + arrived.length)
      have hmoved : request.moved (some start) arrived.length p' =
          p'.seek request.fd fun offset =>
            if arrived.length > uint64Max - offset then none else some (offset + arrived.length) :=
        if_pos ⟨rfl, Option.isNone_iff_eq_none.mp hadvances.1, hadvances.2⟩
      rw [provFdTableAdvance]
      generalize moveOffset s'.table request.fd _ = out at hmove ⊢
      obtain ⟨_ | _, table⟩ := out
      · refine .of_labels harrived hlabels ?_
        rw [hmoved, hmove.1]
        exact ⟨hmove.2, rfl⟩
      · obtain ⟨p'', hseek, htable⟩ := hmove
        refine .of_labels harrived hlabels ?_
        rw [hmoved, hseek]
        exact ⟨htable, rfl⟩
    · rename_i hstays
      refine hstay (if_neg fun h => hstays ⟨?_, h.2.2⟩)
      rw [h.2.1]
      rfl

/-- **Input labels cover the bytes that are read.**  When a call that is followed returns, whatever
happened since it was entered: the first bytes of its buffers, as many as have arrived, carry the labels
of what was read, nothing else changes, and the offset of the file moves by their number unless the call
had a position of its own. -/
theorem inputSyscallRet_applied {call : InputCall} {request : ReadRequest}
    (hcall : call.request = some request) (hp : FdRefines s.table p)
    (hoffsets : ∀ file ∈ p.files, file.offset < 2 ^ 64) (hp' : FdRefines s'.table p')
    (hregistry : RegistryReachable s'.registry) (hshadow : ShadowRefines shadow mem) (ret : BitVec 64)
    (hguest : ∀ a ∈ request.arrived ret, a < 2 ^ 32) :
    InputApplied request (request.socket || fdIsTaintSource s request.fd) (request.start p)
      (request.arrived ret) s' p' shadow mem
      (inputSyscallRet s' shadow (pendingInputCall s call) call.num ret) := by
  rw [pendingInputCall_eq, hcall, Option.bind_some]
  have hnothing : ∀ {arrived : List ℕ}, arrived = [] →
      InputApplied request (request.socket || fdIsTaintSource s request.fd) (request.start p) arrived s'
        p' shadow mem (true, s', shadow) := by
    rintro _ rfl
    exact .of_nothing request _ _ hp' hshadow
  unfold inputSyscallRet
  unfold ReadRequest.arrived returnedBytes at hguest ⊢
  split
  · exact hnothing List.take_zero
  rename_i herror
  rw [if_neg herror] at hguest
  unfold ReadRequest.leaves
  split
  · rename_i hnil
    rw [hnil, List.take_nil]
    exact hnothing rfl
  rename_i hbytes
  rcases Int.lt_or_le 0 ret.toInt with hret | hret
  · have htoNat : ret.toInt.toNat = ret.toNat := by
      have htoInt := BitVec.toInt_eq_toNat_cond ret
      split_ifs at htoInt <;> omega
    rw [htoNat] at hguest ⊢
    exact applyPendingInput_applied hp hp' hregistry hshadow hret hbytes
      (fun _ _ => ReadRequest.start_lt hcall hoffsets) hguest
  · rw [Int.toNat_of_nonpos hret, List.take_zero]
    have hkept : applyPendingInput s' shadow (some (request.pending s call.num)) call.num ret =
        (true, s', shadow) := by
      unfold applyPendingInput
      dsimp only
      rw [if_neg (not_not.mpr (request.pending_num s call.num)), if_pos hret]
    rw [hkept]
    exact hnothing rfl

/-- A tracker with one file, bound to 3 at offset 7. -/
def boundTracker : Tracker :=
  let registry := (provResourceIntern freshTracker.registry (fileResourceKey freshTracker 1)
    (some [47, 97]) provResourceRoleFuzzInput).2
  { freshTracker with
    registry := registry
    table := (provFdTableBindNew registry freshTracker.table 3 1 7 0).2 }

theorem boundTracker_table : ∃ p, FdRefines boundTracker.table p ∧ p.files = [⟨1, 7, 0⟩] ∧
    p.fds 3 = some 0 := by
  have hfresh : FdRefines freshTracker.table PosixFds.empty :=
    @provFdTableCreate_refines ⟨fun _ => true⟩ _ rfl
  have hbind := hfresh.bindNew boundTracker.registry 3 1 7 0
  have hsome : (provFdTableBindNew boundTracker.registry freshTracker.table 3 1 7 0).1.isSome = true := by
    decide
  show ∃ p, FdRefines (provFdTableBindNew boundTracker.registry freshTracker.table 3 1 7 0).2 p ∧ _
  generalize provFdTableBindNew boundTracker.registry freshTracker.table 3 1 7 0 = out at hbind hsome ⊢
  obtain ⟨_ | id, table⟩ := out
  · cases hsome
  · obtain ⟨-, p, hstep, hp⟩ := hbind
    rw [PosixFds.step, if_neg (by decide)] at hstep
    obtain rfl := Option.some.inj hstep
    exact ⟨_, hp, rfl, rfl⟩

theorem boundTracker_registry : RegistryReachable boundTracker.registry := by
  have hsome : (provRegistryCreate 32 ⟨fun _ => true⟩).isSome = true := by decide
  obtain ⟨registry, hregistry⟩ := Option.isSome_iff_exists.mp hsome
  have hfresh : freshTracker.registry = registry := by rw [freshTracker, hregistry, Option.getD_some]
  refine RegistryReachable.internResource ?_ _ _ _
  rw [hfresh]
  exact .create hregistry

/-- `read(3, 0x1000, 2)` -/
def readTwo : InputCall :=
  { num := 3, a1 := 3, a2 := 0x1000, a3 := 2, a4 := 0, a5 := 0, guestWord := fun _ => none }

/-- Of two bytes that were asked for, one arrives: byte 7 of the file. -/
theorem inputSyscallRet_applied_read : ∃ p shadow, p.fds 3 = some 0 ∧ p.files = [⟨1, 7, 0⟩] ∧
    shadowCreateWithRegistry 32 ⟨fun _ => true⟩ = some shadow ∧
    InputApplied ⟨3, [⟨0x1000, 2⟩], none, false⟩ true (some (1, 7)) [0x1000] boundTracker p shadow
      (fun _ => provLabelClean)
      (inputSyscallRet boundTracker shadow (pendingInputCall boundTracker readTwo) 3 1) := by
  obtain ⟨p, hp, hfiles, hfds⟩ := boundTracker_table
  refine ⟨p, _, hfds, hfiles, rfl, ?_⟩
  have happlied := @inputSyscallRet_applied boundTracker boundTracker _ _ p p readTwo
    ⟨3, [⟨0x1000, 2⟩], none, false⟩ rfl hp (by rw [hfiles]; decide) hp boundTracker_registry
    (@ShadowRefines.create ⟨fun _ => true⟩ _ rfl) 1 (by decide)
  have hstart : ReadRequest.start ⟨3, [⟨0x1000, 2⟩], none, false⟩ p = some (1, 7) := by
    rw [ReadRequest.start, PosixFds.fileOf, hfds, hfiles]
    rfl
  rw [hstart] at happlied
  exact happlied

/-- What the guest asks for with any call that reads, `preadv` with its list of buffers included. -/
def InputCall.readRequest (call : InputCall) : Option ReadRequest :=
  if call.num = 333 then
    (iovecs call.guestWord (lowWord call.a2) (call.a3.setWidth 32).toInt).map fun buffers =>
      ⟨toFd call.a1, buffers, some (lowWord call.a4 + 2 ^ 32 * lowWord call.a5), false⟩
  else call.request

/-- `preadv(3, iov, 1, 0)`, with one buffer of one byte. -/
def preadvOne : InputCall :=
  { num := 333, a1 := 3, a2 := 0x2000, a3 := 1, a4 := 0, a5 := 0
    guestWord := fun address => if address = 0x2000 then some 0x1000#32 else some 1#32 }

/-- What `preadv` brings is not labelled. -/
theorem preadv_not_labelled : ¬∀ (s : Tracker) (shadow : ShadowMemory) (mem : ℕ → ℕ) (call : InputCall)
    (request : ReadRequest) (ret : BitVec 64), ShadowRefines shadow mem →
      call.readRequest = some request → fdIsTaintSource s request.fd = true →
      ∀ a ∈ request.arrived ret, a < 2 ^ 32 →
        shadowLoadLabel (inputSyscallRet s shadow (pendingInputCall s call) call.num ret).2.2 a ≠
          provLabelClean := by
  intro hclaim
  have hcreate := @ShadowRefines.create ⟨fun _ => true⟩ _ rfl
  refine hclaim boundTracker _ _ preadvOne ⟨3, [⟨0x1000, 1⟩], some 0, false⟩ 1 hcreate rfl (by decide)
    0x1000 (by decide) (by decide) ?_
  exact hcreate.reads.load 0x1000

end TaintForge
