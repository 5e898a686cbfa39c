import TaintForge.Dta.Equiv.Shadow
import TaintForge.Lib.WriteOrder
import TaintForge.Plugin.InputLabels
import TaintForge.Prov.Equiv.FdTable
import TaintForge.Prov.Equiv.Room

/-!
# What the guest reads is labelled

* `ReadRequest`: what a call asks for, whatever call it is.
* `IsByteLabel`, `IsUnidentified`, `ReadLabel`: the labels of the bytes that arrive.
* `LabelStep`: what labelling does to the registry and the shadow memory.
* `labelInputBuffers_step`: the buffers are labelled in their order.
-/

namespace TaintForge

open ProvRegistry

variable {registry registry' r₁ r₂ r₃ : ProvRegistry} {shadow shadow' s₁ s₂ s₃ : ShadowMemory}
  {mem mem' : ℕ → ℕ}

/-! ### Labels -/

/-- The complete label of one byte of a resource, in the data channel. -/
def IsByteLabel (registry : ProvRegistry) (resourceId offset label : ℕ) : Prop :=
  ∃ set rootId, provLabelGet registry label = some ⟨set, provRootSetEmpty, provCompleteAll, 0⟩ ∧
    set ≤ registry.rootSets.records.length ∧ setRoots registry set = [rootId] ∧
      provRootGet registry rootId = some (resourceByteRoot resourceId offset)

/-- The label of a byte that has come from somewhere, but it is not known from where. -/
def IsUnidentified (registry : ProvRegistry) (label : ℕ) : Prop :=
  provLabelGet registry label =
    some ⟨0, 0, 0, provIncompleteUnknown ||| provIncompleteSourceIdentity⟩

/-- The label of the byte `k` of those that arrive: none when the descriptor is no source of taint, one
that names the byte when it is known what the descriptor is bound to and where that begins. -/
def ReadLabel (registry : ProvRegistry) (taintSource : Bool) (start : Option (ℕ × ℕ)) (k label : ℕ) :
    Prop :=
  if taintSource = false then label = provLabelClean
  else
    match start with
    | some (resourceId, offset) =>
      if offset + k < 2 ^ 64 then IsByteLabel registry resourceId (offset + k) label
      else IsUnidentified registry label
    | none => IsUnidentified registry label

theorem IsByteLabel.mono {resourceId offset label : ℕ} (hkeeps : KeepsIds registry registry')
    (h : IsByteLabel registry resourceId offset label) : IsByteLabel registry' resourceId offset label := by
  obtain ⟨set, rootId, hlabel, hset, hroots, hroot⟩ := h
  obtain ⟨hle, hsame⟩ := hkeeps.sets set hset
  exact ⟨set, rootId, hkeeps.labels _ _ hlabel, hle, hsame.trans hroots, hkeeps.roots _ _ hroot⟩

theorem ReadLabel.mono {taintSource : Bool} {start : Option (ℕ × ℕ)} {k label : ℕ}
    (hkeeps : KeepsIds registry registry') (h : ReadLabel registry taintSource start k label) :
    ReadLabel registry' taintSource start k label := by
  unfold ReadLabel at h ⊢
  split
  · rwa [if_pos ‹_›] at h
  rw [if_neg ‹_›] at h
  cases start with
  | none => exact hkeeps.labels _ _ h
  | some start =>
    dsimp only at h ⊢
    split
    · rw [if_pos ‹_›] at h
      exact h.mono hkeeps
    · rw [if_neg ‹_›] at h
      exact hkeeps.labels _ _ h

/-! ### Steps -/

/-- What labelling does: labels keep their meaning, and nothing runs out by itself. -/
structure LabelStep (r₁ : ProvRegistry) (s₁ : ShadowMemory) (r₂ : ProvRegistry) (s₂ : ShadowMemory) :
    Prop where
  reachable : RegistryReachable r₂
  keeps : KeepsIds r₁ r₂
  wider : Wider r₁ r₂
  grown : Grown s₁ s₂

theorem LabelStep.refl (h : RegistryReachable registry) (shadow : ShadowMemory) :
    LabelStep registry shadow registry shadow :=
  ⟨h, .refl registry, .refl registry, .refl shadow⟩

theorem LabelStep.trans (h : LabelStep r₁ s₁ r₂ s₂) (h' : LabelStep r₂ s₂ r₃ s₃) :
    LabelStep r₁ s₁ r₃ s₃ :=
  ⟨h'.reachable, h.keeps.trans h'.keeps, h.wider.trans h'.wider, h.grown.trans h'.grown⟩

/-- Memory or identifiers have run out. -/
def RunsOut (r₁ : ProvRegistry) (s₁ : ShadowMemory) (r₂ : ProvRegistry) (s₂ : ShadowMemory) : Prop :=
  Lacks r₁ r₂ ∨ Starved s₁ s₂

theorem RunsOut.later (hout : RunsOut r₁ s₁ r₂ s₂) (h : LabelStep r₂ s₂ r₃ s₃) : RunsOut r₁ s₁ r₃ s₃ := by
  refine hout.imp (·.later h.wider) (.imp_right fun hbig => ?_)
  have hle := h.grown.length
  show sizeMax < s₃.slots.length * 48
  omega

theorem RunsOut.earlier (h : LabelStep r₁ s₁ r₂ s₂) (hout : RunsOut r₂ s₂ r₃ s₃) : RunsOut r₁ s₁ r₃ s₃ :=
  hout.imp (·.earlier h.wider) (.imp_left fun hno hample => hno (h.grown.ample hample))

/-- What an operation on a range does: it labels the bytes as `P` demands, and reports a failure only
when something has run out. -/
structure LabelsRange (r₁ : ProvRegistry) (s₁ : ShadowMemory) (mem : ℕ → ℕ) (places : List ℕ)
    (P : ProvRegistry → ℕ → ℕ → Prop) (fails : Prop) (out : Bool × ProvRegistry × ShadowMemory) : Prop where
  step : LabelStep r₁ s₁ out.2.1 out.2.2
  labels : ∃ mem', ShadowRefines out.2.2 mem' ∧
    Overwrites (out.1 = true) mem mem' places (P out.2.1)
  reported : out.1 = false → RunsOut r₁ s₁ out.2.1 out.2.2 ∨ fails

/-! ### Ranges of the shadow memory -/

theorem writeLabels_overwrites (ok : Prop) (mem : ℕ → ℕ) (addr : ℕ) (labels : List ℕ) :
    Overwrites ok mem (writeLabels mem addr labels) (List.range' addr labels.length)
      fun i label => labels[i]? = some label := by
  refine .range (fun b hb => ?_) fun _ i hi => ?_
  · rcases hb with hlt | hge
    · exact writeLabels_of_lt hlt
    · exact writeLabels_of_ge hge
  · rw [writeLabels, if_pos (Nat.le_add_right addr i), Nat.add_sub_cancel_left,
      List.getElem?_eq_getElem hi, Option.getD_some]

/-- A call that is not refused writes its labels, unless memory runs out. -/
theorem ShadowRefines.call_overwrites (h : ShadowRefines shadow mem) {op : ShadowOp}
    (haccepted : op.Accepted) :
    Grown shadow (shadowCall shadow op).2 ∧ ∃ mem', ShadowRefines (shadowCall shadow op).2 mem' ∧
      Overwrites ((shadowCall shadow op).1 = true) mem mem' (List.range' op.start op.labels.length)
        (fun i label => op.labels[i]? = some label) ∧
      ((shadowCall shadow op).1 = false → Starved shadow (shadowCall shadow op).2) := by
  obtain ⟨hgrown, mem', hstep, h'⟩ := h.call op
  refine ⟨hgrown, mem', h', ?_⟩
  generalize (shadowCall shadow op).1 = ok at hstep
  cases hstep with
  | refused hno => exact absurd haccepted hno
  | written _ => exact ⟨writeLabels_overwrites _ mem _ _, nofun⟩
  | cut _ hstarved n hn =>
    refine ⟨.of_frame Bool.false_ne_true fun a ha => ?_, fun _ => hstarved⟩
    rw [List.mem_range'_1] at ha
    rcases Nat.lt_or_ge a op.start with hlt | hge
    · exact writeLabels_of_lt hlt
    · refine writeLabels_of_ge ?_
      have hlength := List.length_take_le n op.labels
      omega

/-! ### Labels that are registered -/

theorem provLabelIdValidLocked_of_get {label : ℕ} {view : ProvLabelView}
    (h : provLabelGet registry label = some view) : provLabelIdValidLocked registry label = true := by
  obtain ⟨hne, record, hrecord, -⟩ := provLabelGet_eq_some_iff.mp h
  exact provLabelIdValidLocked_iff.mpr ⟨hne, (List.getElem?_eq_some_iff.mp hrecord).1⟩

/-- What registering a label does: it is the label that was asked for, or something is lacking. -/
structure LabelMade (registry : ProvRegistry) (P : ProvRegistry → ℕ → Prop) (fails : Prop)
    (out : ℕ × ProvRegistry) : Prop where
  reachable : RegistryReachable out.2
  keeps : KeepsIds registry out.2
  wider : Wider registry out.2
  made : out.1 ≠ provLabelIdInvalid → P out.2 out.1
  lacks : out.1 = provLabelIdInvalid → Lacks registry out.2 ∨ fails

theorem dtaIncompleteUnknownLabel_made (h : RegistryReachable registry) :
    LabelMade registry IsUnidentified False
      (dtaIncompleteUnknownLabel registry provIncompleteSourceIdentity) := by
  have hget := h.get_unknown
  have hne := (provLabelGet_eq_some_iff.mp hget).1
  have hmark : dtaIncompleteUnknownLabel registry provIncompleteSourceIdentity =
      provLabelMarkIncomplete registry registry.unknownLabel provCompleteAll
        provIncompleteSourceIdentity := if_neg hne
  have hintern : provLabelMarkIncomplete registry registry.unknownLabel provCompleteAll
      provIncompleteSourceIdentity = provLabelInternLocked registry
        ⟨0, 0, 0, provIncompleteUnknown ||| provIncompleteSourceIdentity⟩ := by
    rw [provLabelMarkIncomplete, hget]
    rfl
  have hlacks := @provLabelMarkIncomplete_lacks _ h.wf _ _ hget provCompleteAll provIncompleteSourceIdentity
  rw [hmark]
  rw [hintern] at hlacks ⊢
  have hregistered := provLabelInternLocked_registered h.wf
    ⟨0, 0, 0, provIncompleteUnknown ||| provIncompleteSourceIdentity⟩
  exact ⟨h.internLabel _, hregistered.keeps, provLabelInternLocked_wider _ _, hregistered.named,
    fun hid => .inl (hlacks hid)⟩

/-- The label of a root, in the data channel. -/
theorem provLabelFromRoot_made (h : RegistryReachable registry) {rootId : ℕ} {key : ProvRootKey}
    (hroot : provRootGet registry rootId = some key) :
    LabelMade registry (fun registry label => ∃ set,
        provLabelGet registry label = some ⟨set, provRootSetEmpty, provCompleteAll, 0⟩ ∧
          set ≤ registry.rootSets.records.length ∧ setRoots registry set = [rootId]) False
      (provLabelFromRoot registry rootId .data) := by
  have hkeys := RegistryOp.run_keys registry (.labelFromRoot rootId .data) nofun nofun
  refine ⟨h.labelFromRoot rootId .data, hkeys.keepsIds (provLabelFromRoot_later h.wf rootId .data).keeps,
    provLabelFromRoot_wider registry rootId .data, fun hne => ?_,
    fun hid => .inl (provLabelFromRoot_lacks h.wf hroot hid)⟩
  obtain ⟨setId, r₁, heq, hwf, -, hset⟩ := provRootSetInternSortedLocked_spec h.wf
    (List.pairwise_singleton _ rootId) (show [rootId].length ≤ _ from h.wf.limit_pos)
  unfold provLabelFromRoot at hne ⊢
  split
  · rw [if_pos ‹_›] at hne
    exact absurd rfl hne
  rw [if_neg ‹_›] at hne
  rw [heq] at hne ⊢
  dsimp only at hne ⊢
  split
  · rw [if_pos ‹_›] at hne
    exact absurd rfl hne
  rename_i hvalid
  rw [if_neg hvalid] at hne
  rw [if_pos rfl, if_neg (show ProvChannel.data ≠ .address by decide)] at hne ⊢
  obtain ⟨hle, hroots⟩ := hset hvalid
  have hlater := provLabelInternLocked_later hwf
    ⟨setId, provRootSetEmpty, provCompleteAll, 0⟩
  have hnamed := (provLabelInternLocked_registered hwf
    ⟨setId, provRootSetEmpty, provCompleteAll, 0⟩).named hne
  rw [provLabelNormalize_eq (iff_of_true rfl BitVec.and_self)] at hnamed
  dsimp only at hnamed
  rw [BitVec.and_self] at hnamed
  exact ⟨setId, hnamed, hle.trans hlater.keeps.length_le, (hlater.keeps.setRoots_eq hle).trans hroots⟩

/-- The registry has a resource with the number, which has 32 bits. -/
def KnowsResource (registry : ProvRegistry) (resourceId : ℕ) : Prop :=
  resourceId < 2 ^ 32 ∧ ∃ key, resourceKey registry resourceId = some key

theorem KnowsResource.mono {resourceId : ℕ} (h : KnowsResource registry resourceId)
    (hkeeps : KeepsIds registry registry') : KnowsResource registry' resourceId := by
  obtain ⟨hlt, key, hkey⟩ := h
  exact ⟨hlt, key, hkeeps.resources _ _ hkey⟩

theorem KnowsResource.accepts {resourceId : ℕ} (h : KnowsResource registry resourceId) (offset : ℕ) :
    AcceptsRoot registry (resourceByteRoot resourceId offset) := by
  obtain ⟨hlt, key, hkey⟩ := h
  have htoNat : (BitVec.ofNat 64 resourceId).toNat = resourceId := by
    rw [BitVec.toNat_ofNat, Nat.mod_eq_of_lt (by omega)]
  cases resourceId with
  | zero => cases hkey
  | succ index =>
    rw [resourceKey_succ] at hkey
    have hle := (List.getElem?_eq_some_iff.mp hkey).1
    rw [List.length_map] at hle
    refine ⟨nofun, fun ⟨_, hsource⟩ => ?_⟩
    rcases hsource with hzero | hgt
    · rw [show BitVec.ofNat 64 (index + 1) = 0 from hzero] at htoNat
      cases htoNat
    · have hgt : (BitVec.ofNat 64 (index + 1)).toNat > registry.resources.records.length := hgt
      omega

theorem resourceByteLabel_made (h : RegistryReachable registry) (resourceId offset : ℕ) :
    LabelMade registry (fun registry label => IsByteLabel registry resourceId offset label)
      (¬KnowsResource registry resourceId) (resourceByteLabel registry resourceId offset) := by
  have hregistered := provRootIntern_registered h.keysWF (resourceByteRoot resourceId offset)
  have hlacks := fun haccepts => @provRootIntern_lacks registry h.keysWF
    (resourceByteRoot resourceId offset) haccepts
  have hwider := provRootIntern_wider registry (resourceByteRoot resourceId offset)
  have h₁ := h.internRoot (resourceByteRoot resourceId offset)
  unfold resourceByteLabel
  generalize provRootIntern registry (resourceByteRoot resourceId offset) = out at *
  obtain ⟨rootId, r₁⟩ := out
  dsimp only at *
  split
  · rename_i hinvalid
    refine ⟨h₁, hregistered.keeps, hwider, fun hne => absurd rfl hne, fun _ => ?_⟩
    by_cases hknows : KnowsResource registry resourceId
    · exact .inl (hlacks (hknows.accepts offset) hinvalid)
    · exact .inr hknows
  rename_i hvalid
  have hroot := hregistered.named hvalid
  have hmade := provLabelFromRoot_made h₁ hroot
  refine ⟨hmade.reachable, hregistered.keeps.trans hmade.keeps, hwider.trans hmade.wider, fun hne => ?_,
    fun hid => .inl ?_⟩
  · obtain ⟨set, hlabel, hle, hroots⟩ := hmade.made hne
    exact ⟨set, rootId, hlabel, hle, hroots, hmade.keeps.roots _ _ hroot⟩
  · exact ((hmade.lacks hid).resolve_right id).earlier hwider

/-! ### Ranges that are labelled -/

theorem ShadowRefines.fill_overwrites (h : ShadowRefines shadow mem) {address size label : ℕ}
    (hlabel : provLabelIdValidLocked registry label = true) (hpos : 0 < size)
    (hend : address + size ≤ 2 ^ 32) :
    Grown shadow (shadowFillLabel registry shadow address size label).2 ∧ ∃ mem',
      ShadowRefines (shadowFillLabel registry shadow address size label).2 mem' ∧
      Overwrites ((shadowFillLabel registry shadow address size label).1 = true) mem mem'
        (List.range' address size) (fun _ l => l = label) ∧
      ((shadowFillLabel registry shadow address size label).1 = false →
        Starved shadow (shadowFillLabel registry shadow address size label).2) := by
  obtain ⟨hgrown, mem', h', hover, hstarved⟩ :=
    h.call_overwrites (show (ShadowOp.fill registry address size label).Accepted from hlabel)
  have hstart : address % 2 ^ 32 = address := Nat.mod_eq_of_lt (by omega)
  have hlength : min size (2 ^ 32 - address % 2 ^ 32) = size := by omega
  rw [ShadowOp.start, ShadowOp.labels, hlength, hstart, List.length_replicate] at hover
  refine ⟨hgrown, mem', h', hover.mono id fun k l hl => ?_, hstarved⟩
  exact (List.eq_of_mem_replicate (List.mem_of_getElem? hl))

theorem ShadowRefines.store_overwrites (h : ShadowRefines shadow mem) {address label : ℕ}
    (hlabel : provLabelIdValidLocked registry label = true) (hend : address < 2 ^ 32) :
    Grown shadow (shadowStoreLabels registry shadow address [label]).2 ∧ ∃ mem',
      ShadowRefines (shadowStoreLabels registry shadow address [label]).2 mem' ∧
      Overwrites ((shadowStoreLabels registry shadow address [label]).1 = true) mem mem'
        [address] (fun _ l => l = label) ∧
      ((shadowStoreLabels registry shadow address [label]).1 = false →
        Starved shadow (shadowStoreLabels registry shadow address [label]).2) := by
  have hstart : address % 2 ^ 32 = address := Nat.mod_eq_of_lt hend
  have haccepted : (ShadowOp.store registry address [label]).Accepted := by
    refine ⟨fun l hl => ?_, ?_⟩
    · rwa [List.mem_singleton.mp hl]
    · rw [hstart, List.length_singleton]
      exact hend
  obtain ⟨hgrown, mem', h', hover, hstarved⟩ := h.call_overwrites haccepted
  rw [ShadowOp.start, hstart] at hover
  refine ⟨hgrown, mem', h', hover.mono id fun k l hl => ?_, hstarved⟩
  exact List.mem_singleton.mp (List.mem_of_getElem? hl)

theorem shadowFillIncomplete_labels (h : RegistryReachable registry) (hs : ShadowRefines shadow mem)
    {address size : ℕ} (hpos : 0 < size) (hend : address + size ≤ 2 ^ 32) :
    LabelsRange registry shadow mem (List.range' address size) (fun r _ label => IsUnidentified r label)
      False (shadowFillIncomplete registry shadow address size provIncompleteSourceIdentity) := by
  have hmade := dtaIncompleteUnknownLabel_made h
  unfold shadowFillIncomplete
  generalize dtaIncompleteUnknownLabel registry provIncompleteSourceIdentity = out at hmade ⊢
  obtain ⟨label, r₁⟩ := out
  dsimp only
  split
  · rename_i hinvalid
    refine ⟨⟨hmade.reachable, hmade.keeps, hmade.wider, .refl shadow⟩,
      ⟨mem, hs, .of_frame Bool.false_ne_true fun _ _ => rfl⟩, fun _ => .inl (.inl ?_)⟩
    exact (hmade.lacks hinvalid).resolve_right id
  · rename_i hvalid
    have hlabel := hmade.made hvalid
    have hid := provLabelIdValidLocked_of_get hlabel
    obtain ⟨hgrown, mem', h', hover, hstarved⟩ := hs.fill_overwrites hid hpos hend
    refine ⟨⟨hmade.reachable, hmade.keeps, hmade.wider, hgrown⟩, ⟨mem', h', hover.mono id ?_⟩,
      fun hfalse => .inl (.inr (hstarved hfalse))⟩
    rintro k l rfl
    exact hlabel

/-- The bytes of a resource, one label each.  What is left after a failure is marked as incomplete. -/
theorem seedResourceBytes_labels (h : RegistryReachable registry) (hs : ShadowRefines shadow mem)
    {address size : ℕ} (resourceId offset : ℕ) (hend : address + size ≤ 2 ^ 32) :
    LabelsRange registry shadow mem (List.range' address size)
      (fun r i label => IsByteLabel r resourceId (offset + i) label) (¬KnowsResource registry resourceId)
      (seedResourceBytes registry shadow address resourceId offset size) := by
  induction size generalizing registry shadow mem address offset with
  | zero => exact ⟨.refl h shadow, ⟨mem, hs, .nil mem⟩, nofun⟩
  | succ size ih =>
    have hmade := resourceByteLabel_made h resourceId offset
    unfold seedResourceBytes
    generalize resourceByteLabel registry resourceId offset = out at hmade ⊢
    obtain ⟨label, r₁⟩ := out
    dsimp only
    -- what storing the label of the first byte does
    have hstored : ∃ stored s₁ mem₁, (if label = provLabelIdInvalid then (false, shadow)
          else shadowStoreLabels r₁ shadow address [label]) = (stored, s₁) ∧ Grown shadow s₁ ∧
        ShadowRefines s₁ mem₁ ∧ Overwrites (stored = true) mem mem₁ [address]
          (fun i label => IsByteLabel r₁ resourceId (offset + i) label) ∧
        (stored = false → RunsOut registry shadow r₁ s₁ ∨ ¬KnowsResource registry resourceId) := by
      split
      · rename_i hinvalid
        refine ⟨false, shadow, mem, rfl, .refl shadow, hs,
          .of_frame Bool.false_ne_true fun _ _ => rfl, fun _ => ?_⟩
        exact (hmade.lacks hinvalid).imp_left .inl
      · rename_i hvalid
        obtain ⟨set, rootId, hget, -⟩ := hmade.made hvalid
        obtain ⟨hgrown, mem₁, h₁, hover, hstarved⟩ := hs.store_overwrites
          (provLabelIdValidLocked_of_get hget) (show address < 2 ^ 32 by omega)
        refine ⟨_, _, mem₁, rfl, hgrown, h₁, ⟨hover.frame, fun hok k hk hlast => ?_⟩,
          fun hfalse => .inl (.inr (hstarved hfalse))⟩
        obtain rfl : k = 0 := Nat.lt_one_iff.mp hk
        rw [hover.last hok 0 hk hlast]
        exact hmade.made hvalid
    obtain ⟨stored, s₁, mem₁, hstore, hgrown, h₁, hover, hfails⟩ := hstored
    have hstep : LabelStep registry shadow r₁ s₁ := ⟨hmade.reachable, hmade.keeps, hmade.wider, hgrown⟩
    rw [hstore, show List.range' address (size + 1) = [address] ++ List.range' (address + 1) size from rfl]
    dsimp only
    split
    · rename_i hfalse
      have hfill := shadowFillIncomplete_labels hmade.reachable h₁ (Nat.succ_pos size) hend
      obtain ⟨mem₂, h₂, hover₂⟩ := hfill.labels
      refine ⟨hstep.trans hfill.step, ⟨mem₂, h₂, .of_frame Bool.false_ne_true fun a ha => ?_⟩,
        fun _ => (hfails hfalse).imp_left (·.later hfill.step)⟩
      rw [hover₂.frame a ha, hover.frame a fun hmem => ha (List.mem_append_left _ hmem)]
    · rename_i htrue
      have hrest := ih hmade.reachable h₁ (offset + 1) (show address + 1 + size ≤ 2 ^ 32 by omega)
      obtain ⟨mem₂, h₂, hover₂⟩ := hrest.labels
      refine ⟨hstep.trans hrest.step, ⟨mem₂, h₂, ?_⟩, fun hfalse => ?_⟩
      · have hfirst := hover.mono id fun k l hl => IsByteLabel.mono hrest.step.keeps hl
        refine (hfirst.append (hover₂.mono id fun k l hl => ?_)).mono
          (fun hok => ⟨Bool.eq_true_of_not_eq_false htrue, hok⟩) fun k l hl => hl
        rwa [List.length_singleton, ← Nat.add_assoc]
      · exact (hrest.reported hfalse).imp (.earlier hstep) fun hno hknows => hno (hknows.mono hmade.keeps)

theorem seedResourceByteLabels_labels (h : RegistryReachable registry) (hs : ShadowRefines shadow mem)
    {address size : ℕ} (resourceId : ℕ) {offset : ℕ} (hpos : 0 < size) (hend : address + size ≤ 2 ^ 32)
    (hoffset : offset < 2 ^ 64) :
    LabelsRange registry shadow mem (List.range' address size)
      (fun r i label => ReadLabel r true (some (resourceId, offset)) i label)
      (¬KnowsResource registry resourceId ∨ 2 ^ 64 < offset + size)
      (seedResourceByteLabels registry shadow address size resourceId offset) := by
  have hmax : uint64Max = 2 ^ 64 - 1 := rfl
  unfold seedResourceByteLabels
  split
  · rename_i hinvalid
    refine ⟨.refl h shadow, ⟨mem, hs, .of_frame Bool.false_ne_true fun _ _ => rfl⟩, fun _ => .inr (.inl ?_)⟩
    rintro ⟨-, key, hkey⟩
    rw [hinvalid] at hkey
    cases hkey
  rw [if_neg hpos.ne']
  split
  · rename_i hover
    have hfill := shadowFillIncomplete_labels h hs hpos hend
    obtain ⟨mem₁, h₁, hwritten⟩ := hfill.labels
    refine ⟨hfill.step, ⟨mem₁, h₁, .of_frame Bool.false_ne_true hwritten.frame⟩, fun _ => .inr (.inr ?_)⟩
    omega
  · rename_i hfits
    have hseed := seedResourceBytes_labels h hs resourceId offset hend
    obtain ⟨mem₁, h₁, hwritten⟩ := hseed.labels
    refine ⟨hseed.step, ⟨mem₁, h₁, hwritten.frame, fun hok k hk hlast => ?_⟩,
      fun hfalse => (hseed.reported hfalse).imp_right .inl⟩
    have hlabel := hwritten.last hok k hk hlast
    rw [List.length_range'] at hk
    show ReadLabel _ true (some (resourceId, offset)) k _
    rw [ReadLabel, if_neg (by decide), if_pos (by omega)]
    exact hlabel

/-- What a pending record says about where the bytes begin. -/
def PendingInput.start (pending : PendingInput) : Option (ℕ × ℕ) :=
  pending.identity.map fun identity => (identity.resourceId, identity.sourceOffset)

/-- The bytes cannot all be named: the registry does not know the resource, or they pass the last
offset. -/
def Unnamable (registry : ProvRegistry) (start : Option (ℕ × ℕ)) (arrived : ℕ) : Prop :=
  ∃ resourceId offset, start = some (resourceId, offset) ∧
    (¬KnowsResource registry resourceId ∨ 2 ^ 64 < offset + arrived)

theorem ReadLabel.shift {taintSource : Bool} {resourceId offset k label : ℕ} (displacement : ℕ)
    (h : ReadLabel registry taintSource (some (resourceId, offset + displacement)) k label) :
    ReadLabel registry taintSource (some (resourceId, offset)) (displacement + k) label := by
  unfold ReadLabel at h ⊢
  dsimp only at h ⊢
  rwa [← Nat.add_assoc]

theorem labelInputChunk_labels (pending : PendingInput) (h : RegistryReachable registry)
    (hs : ShadowRefines shadow mem) {destination chunk : ℕ} (displacement : ℕ) (hpos : 0 < chunk)
    (hend : destination + chunk ≤ 2 ^ 32)
    (hoffset : ∀ resourceId offset, pending.start = some (resourceId, offset) → offset < 2 ^ 64) :
    LabelsRange registry shadow mem (List.range' destination chunk)
      (fun r i label => ReadLabel r pending.taintSource pending.start (displacement + i) label)
      (Unnamable registry pending.start (displacement + chunk))
      (labelInputChunk pending registry shadow destination chunk displacement) := by
  unfold labelInputChunk
  split
  · rename_i hclean
    have hvalid := provLabelIdValidLocked_of_get h.get_clean
    obtain ⟨s₁, hfill, hgrown, h₁⟩ := hs.clear hvalid destination chunk
    rw [shadowUntaintRange, hfill]
    rw [show destination % 2 ^ 32 = destination from Nat.mod_eq_of_lt (by omega),
      Nat.min_eq_left (show chunk ≤ 2 ^ 32 - destination by omega)] at h₁
    have hwritten := writeLabels_overwrites (true = true) mem destination
      (List.replicate chunk provLabelClean)
    rw [List.length_replicate] at hwritten
    refine ⟨⟨h, .refl registry, .refl registry, hgrown⟩, ⟨_, h₁, hwritten.mono id fun k l hl => ?_⟩, nofun⟩
    unfold ReadLabel
    rw [if_pos hclean]
    exact List.eq_of_mem_replicate (List.mem_of_getElem? hl)
  rename_i hsource
  have hfill : ∀ {start : Option (ℕ × ℕ)}, (∀ resourceId offset, start = some (resourceId, offset) →
      2 ^ 64 ≤ offset + displacement) → LabelsRange registry shadow mem (List.range' destination chunk)
        (fun r i label => ReadLabel r pending.taintSource start (displacement + i) label)
        (Unnamable registry start (displacement + chunk))
        (shadowFillIncomplete registry shadow destination chunk provIncompleteSourceIdentity) := by
    intro start hpast
    have hfill := shadowFillIncomplete_labels h hs hpos hend
    obtain ⟨mem₁, h₁, hwritten⟩ := hfill.labels
    refine ⟨hfill.step, ⟨mem₁, h₁, hwritten.mono id fun k l hl => ?_⟩,
      fun hfalse => .inl ((hfill.reported hfalse).resolve_right id)⟩
    unfold ReadLabel
    rw [if_neg hsource]
    cases start with
    | none => exact hl
    | some start =>
      have hpast := hpast start.1 start.2 rfl
      dsimp only
      rw [if_neg (by omega)]
      exact hl
  cases hidentity : pending.identity with
  | none =>
    have hstart : pending.start = none := by rw [PendingInput.start, hidentity]; rfl
    rw [hstart]
    exact hfill nofun
  | some identity =>
    have hstart : pending.start = some (identity.resourceId, identity.sourceOffset) := by
      rw [PendingInput.start, hidentity]; rfl
    have hlt := hoffset _ _ hstart
    have hmax : uint64Max = 2 ^ 64 - 1 := rfl
    dsimp only
    rw [hstart]
    split
    · have hseed := seedResourceByteLabels_labels h hs identity.resourceId hpos hend
        (show identity.sourceOffset + displacement < 2 ^ 64 by omega)
      obtain ⟨mem₁, h₁, hwritten⟩ := hseed.labels
      refine ⟨hseed.step, ⟨mem₁, h₁, hwritten.mono id fun k l hl => ?_⟩, fun hfalse => ?_⟩
      · rw [Bool.eq_true_of_not_eq_false hsource]
        exact hl.shift displacement
      · refine (hseed.reported hfalse).imp_right fun hfails => ⟨_, _, rfl, ?_⟩
        rwa [← Nat.add_assoc]
    · refine hfill ?_
      rintro _ _ ⟨⟩
      omega

/-! ### Buffers in their order -/

/-- The addresses of a buffer. -/
def PendingIov.bytes (iov : PendingIov) : List ℕ := List.range' iov.base iov.size

/-- The first bytes of a list of buffers, by their first buffer. -/
theorem take_bytes_cons (iov : PendingIov) (rest : List PendingIov) (remaining : ℕ) :
    ((iov :: rest).flatMap PendingIov.bytes).take remaining =
      List.range' iov.base (min iov.size remaining) ++
        (rest.flatMap PendingIov.bytes).take (remaining - min iov.size remaining) := by
  rw [List.flatMap_cons, List.take_append, PendingIov.bytes, List.length_range']
  rcases Nat.le_total iov.size remaining with hle | hge
  · rw [Nat.min_eq_left hle, List.take_range'_of_length_le hle]
  · rw [Nat.min_eq_right hge, List.take_range'_of_length_ge hge, Nat.sub_eq_zero_of_le hge, Nat.sub_self]

theorem Unnamable.mono {start : Option (ℕ × ℕ)} {arrived arrived' : ℕ}
    (h : Unnamable registry' start arrived) (hkeeps : KeepsIds registry registry')
    (hle : arrived ≤ arrived') : Unnamable registry start arrived' := by
  obtain ⟨resourceId, offset, hstart, hfails⟩ := h
  exact ⟨resourceId, offset, hstart, hfails.imp (fun hno hknows => hno (hknows.mono hkeeps)) (by omega)⟩

/-- **The buffers are labelled in their order.** -/
theorem labelInputBuffers_labels (pending : PendingInput)
    (hoffset : ∀ resourceId offset, pending.start = some (resourceId, offset) → offset < 2 ^ 64)
    (iov : List PendingIov) (h : RegistryReachable registry) (hs : ShadowRefines shadow mem)
    (remaining displacement : ℕ)
    (hend : ∀ a ∈ (iov.flatMap PendingIov.bytes).take remaining, a < 2 ^ 32) :
    LabelsRange registry shadow mem ((iov.flatMap PendingIov.bytes).take remaining)
      (fun r i label => ReadLabel r pending.taintSource pending.start (displacement + i) label)
      (Unnamable registry pending.start
        (displacement + ((iov.flatMap PendingIov.bytes).take remaining).length))
      (labelInputBuffers pending registry shadow remaining displacement iov) := by
  induction iov generalizing registry shadow mem remaining displacement with
  | nil =>
    rw [List.flatMap_nil, List.take_nil]
    exact ⟨.refl h shadow, ⟨mem, hs, .nil mem⟩, nofun⟩
  | cons iov rest ih =>
    unfold labelInputBuffers
    split
    · rename_i hzero
      rw [hzero, List.take_zero]
      exact ⟨.refl h shadow, ⟨mem, hs, .nil mem⟩, nofun⟩
    rename_i hremaining
    have hchunk : (if iov.size > remaining then remaining else iov.size) = min iov.size remaining := by
      split_ifs <;> omega
    rw [take_bytes_cons] at hend ⊢
    rw [hchunk]
    dsimp only
    generalize hmin : min iov.size remaining = chunk at hend ⊢
    split
    · -- an empty buffer
      rename_i hzero
      rw [hzero, List.range'_zero, List.nil_append, Nat.sub_zero] at hend ⊢
      exact ih h hs remaining displacement hend
    rename_i hpos
    have hpos := Nat.pos_of_ne_zero hpos
    have hlast : iov.base + (chunk - 1) < 2 ^ 32 := by
      refine hend _ (List.mem_append_left _ (List.mem_range'_1.mpr ?_))
      omega
    have hfirst := labelInputChunk_labels pending h hs displacement hpos
      (show iov.base + chunk ≤ 2 ^ 32 by omega) hoffset
    obtain ⟨mem₁, h₁, hwritten₁⟩ := hfirst.labels
    generalize labelInputChunk pending registry shadow iov.base chunk displacement = out
      at hfirst h₁ hwritten₁ ⊢
    obtain ⟨labelled, r₁, s₁⟩ := out
    have hrest := ih hfirst.step.reachable h₁ (remaining - chunk) (displacement + chunk)
      fun a ha => hend a (List.mem_append_right _ ha)
    obtain ⟨mem₂, h₂, hwritten₂⟩ := hrest.labels
    dsimp only
    generalize labelInputBuffers pending r₁ s₁ (remaining - chunk) (displacement + chunk) rest = out
      at hrest h₂ hwritten₂ ⊢
    obtain ⟨restLabelled, r₂, s₂⟩ := out
    refine ⟨hfirst.step.trans hrest.step, ⟨mem₂, h₂, ?_⟩, fun hfalse => ?_⟩
    · have hmono := hwritten₁.mono id fun k l hl => ReadLabel.mono hrest.step.keeps hl
      refine (hmono.append (hwritten₂.mono id fun k l hl => ?_)).mono
        (fun hok => Bool.and_eq_true_iff.mp hok) fun k l hl => hl
      rwa [List.length_range', ← Nat.add_assoc]
    · rw [List.length_append, List.length_range', ← Nat.add_assoc]
      rcases Bool.and_eq_false_iff.mp hfalse with hfalse | hfalse
      · refine (hfirst.reported hfalse).imp (·.later hrest.step) (·.mono (.refl registry) ?_)
        exact Nat.le_add_right _ _
      · exact (hrest.reported hfalse).imp (.earlier hfirst.step) (·.mono hfirst.step.keeps le_rfl)

end TaintForge
