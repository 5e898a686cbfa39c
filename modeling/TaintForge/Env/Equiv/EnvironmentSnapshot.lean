import TaintForge.Env.EnvironmentSnapshot
import TaintForge.Env.Equiv.AttemptStore

/-!
# Snapshots are addressed by their content

* `EnvironmentSnapshotStore.Sound`: every directory passes `verify`, under the name of its digest.
* `EnvironmentSnapshotStore.Sound.capture`: what a capture does.
* `EnvironmentSnapshotStore.ContentAddressed`: what a sequence of captures leaves behind.
-/

namespace TaintForge

variable {sha : Sha256} {ft : FloatText}

theorem isSha256_of_treeDigest {entries : List EnvironmentEntry} {digest : PyStr}
    (h : treeDigest sha ft entries = .ok digest) : isSha256 digest := isSha256_of_canonicalSha256 h

theorem makeSnapshotId_iff {digest snapshotId : PyStr} :
    makeSnapshotId digest = .ok snapshotId ↔ isSha256 digest ∧ snapshotId = py "env_" ++ digest.take 16 := by
  simp only [makeSnapshotId, bind_eq_ok, ensure_eq_ok, pure_eq_ok]
  constructor
  · rintro ⟨_, h, rfl⟩
    exact ⟨h, rfl⟩
  · rintro ⟨h, rfl⟩
    exact ⟨(), h, rfl⟩

/-! ### A manifest that was made passes its checks -/

theorem checkEntries_of_checked {entries : List EnvironmentEntry}
    (h : ∀ location, ∀ e ∈ entries, e.check location = .ok ()) (index : ℕ) :
    checkEntries index entries = .ok () := by
  induction entries generalizing index with
  | nil => rfl
  | cons e rest ih =>
    rw [checkEntries, h _ e List.mem_cons_self]
    exact ih (fun location e' he' => h location e' (List.mem_cons_of_mem _ he')) (index + 1)

theorem EnvironmentTree.paths_sorted (tree : EnvironmentTree) :
    (tree.entries.map EnvironmentEntry.path).Pairwise (· < ·) := tree.sorted

/-- **The manifest of a tree passes its checks**, when it has the digest of the tree and its own name. -/
theorem EnvironmentSnapshotManifest.check_of_tree {m : EnvironmentSnapshotManifest} {tree : EnvironmentTree}
    (hentries : m.entries = tree.entries) (hdigest : treeDigest sha ft tree.entries = .ok m.treeSha256)
    (hid : m.snapshotId = py "env_" ++ m.treeSha256.take 16) (hsource : m.sourceRootfs ≠ [])
    (hrootfs : m.snapshotRootfs ≠ []) : m.check sha ft = .ok () := by
  have hsha := isSha256_of_treeDigest hdigest
  have hprefix : (py "env_").isPrefixOf m.snapshotId := by
    rw [hid]
    exact List.isPrefixOf_iff_prefix.mpr (List.prefix_append _ _)
  have hsorted := tree.paths_sorted
  simp only [check, bind_eq_ok, ensure_eq_ok]
  refine ⟨(), hprefix, (), hsha, _, makeSnapshotId_iff.mpr ⟨hsha, rfl⟩, (), hid, (), hsource, (), hrootfs, (), ?_,
    (), ?_, (), ?_, (), ?_, _, hentries ▸ hdigest, rfl⟩
  · rw [hentries]
    exact checkEntries_of_checked tree.checked 0
  · rw [hentries]
    exact hsorted.imp fun h => le_of_lt h
  · rw [hentries]
    exact hsorted.imp fun h => ne_of_lt h
  · rw [hentries]
    rfl

/-! ### The directories -/

/-- A directory that passes `verify`, under the name of its digest. -/
structure SnapshotDirectory.Kept (sha : Sha256) (ft : FloatText) (d : SnapshotDirectory) : Prop where
  check : d.manifest.check sha ft = .ok ()
  digest : treeDigest sha ft d.rootfs.entries = .ok d.manifest.treeSha256
  entries : d.rootfs.entries = d.manifest.entries
  name : d.name = py "env_" ++ d.manifest.treeSha256.take 16
  manifestId : d.manifest.snapshotId = d.name

namespace EnvironmentSnapshotStore

/-- **Every directory of the store passes `verify`.** -/
structure Sound (sha : Sha256) (ft : FloatText) (store : EnvironmentSnapshotStore) : Prop where
  kept : ∀ d ∈ store.directories, d.Kept sha ft
  nodup : (store.directories.map SnapshotDirectory.name).Nodup

variable {store : EnvironmentSnapshotStore} {snapshotId : PyStr}

theorem sound_nil (storeDir : PyStr) : Sound sha ft ⟨storeDir, []⟩ where
  kept _ h := absurd h List.not_mem_nil
  nodup := List.nodup_nil

theorem directory_eq (store : EnvironmentSnapshotStore) (snapshotId : PyStr) :
    store.directory snapshotId = entryOf SnapshotDirectory.name snapshotId store.directories := rfl

theorem Sound.of_directory (h : Sound sha ft store) {d : SnapshotDirectory}
    (hd : store.directory snapshotId = some d) : d.Kept sha ft ∧ d.name = snapshotId := by
  obtain ⟨hmem, hname⟩ := mem_of_entryOf hd
  exact ⟨h.kept d hmem, hname⟩

theorem Sound.verify (h : Sound sha ft store) {m : EnvironmentSnapshotManifest} :
    store.verify sha ft snapshotId = .ok m ↔
      (store.directory snapshotId).map SnapshotDirectory.manifest = some m := by
  unfold EnvironmentSnapshotStore.verify
  cases hd : store.directory snapshotId with
  | none => simp
  | some d =>
    obtain ⟨hkept, -⟩ := h.of_directory hd
    simp only [bind_eq_ok, ensure_eq_ok, pure_eq_ok, Option.map_some, Option.some.injEq]
    constructor
    · rintro ⟨_, -, digest, -, _, -, _, -, hm⟩
      exact hm
    · intro hm
      exact ⟨(), hkept.check, _, hkept.digest, (), rfl, (), hkept.entries, hm⟩

theorem newDirectory_kept (store : EnvironmentSnapshotStore) {source digest : PyStr} {copied : EnvironmentTree}
    (hcopied : treeDigest sha ft copied.entries = .ok digest) (hsource : source ≠ []) (now : PyStr) :
    (store.newDirectory (py "env_" ++ digest.take 16) digest source now copied).Kept sha ft where
  check := by
    apply EnvironmentSnapshotManifest.check_of_tree rfl hcopied rfl hsource
    simp [newDirectory, py]
  digest := hcopied
  entries := rfl
  name := rfl
  manifestId := rfl

/-- **What a capture does**: the tree is there already, and the store stays, or it is added under its name. -/
theorem Sound.capture (h : Sound sha ft store) {source now : PyStr} {tree copied : EnvironmentTree}
    (hsource : source ≠ []) {m : EnvironmentSnapshotManifest} {store' : EnvironmentSnapshotStore}
    (hcapture : store.capture sha ft source tree copied now = .ok (m, store')) :
    ∃ digest, treeDigest sha ft tree.entries = .ok digest ∧ m.treeSha256 = digest ∧
      m.snapshotId = py "env_" ++ digest.take 16 ∧
      ((∃ d, store.directory m.snapshotId = some d ∧ d.manifest = m ∧ store' = store) ∨
        (∃ d, store.directory m.snapshotId = none ∧ d.Kept sha ft ∧ d.name = m.snapshotId ∧ d.manifest = m ∧
          store' = { store with directories := store.directories ++ [d] })) := by
  obtain ⟨digest, hdigest, hcapture⟩ := bind_eq_ok.mp hcapture
  obtain ⟨snapshotId, hid, hcapture⟩ := bind_eq_ok.mp hcapture
  obtain ⟨-, rfl⟩ := makeSnapshotId_iff.mp hid
  refine ⟨digest, hdigest, ?_⟩
  cases hd : store.directory (py "env_" ++ digest.take 16) with
  | some d =>
    rw [hd] at hcapture
    simp only [bind_eq_ok, h.verify, hd, Option.map_some, Option.some.injEq, exists_eq_left', ensure_eq_ok,
      pure_eq_ok, Prod.mk.injEq] at hcapture
    obtain ⟨_, hsame, rfl, rfl⟩ := hcapture
    obtain ⟨hkept, hname⟩ := h.of_directory hd
    have hid' : d.manifest.snapshotId = py "env_" ++ digest.take 16 := hkept.manifestId.trans hname
    refine ⟨hsame, hid', .inl ⟨d, ?_, rfl, rfl⟩⟩
    rw [hid', hd]
  | none =>
    rw [hd] at hcapture
    simp only [bind_eq_ok, ensure_eq_ok, pure_eq_ok, Prod.mk.injEq] at hcapture
    obtain ⟨copiedDigest, hcopied, _, rfl, _, -, rfl, rfl⟩ := hcapture
    exact ⟨rfl, rfl, .inr ⟨_, hd, store.newDirectory_kept hcopied hsource now, rfl, rfl, rfl⟩⟩

theorem Sound.append (h : Sound sha ft store) {d : SnapshotDirectory} (hkept : d.Kept sha ft)
    (hnew : store.directory d.name = none) :
    Sound sha ft { store with directories := store.directories ++ [d] } where
  kept d' hd' := by
    rcases List.mem_append.mp hd' with hd' | hd'
    · exact h.kept d' hd'
    · obtain rfl := List.mem_singleton.mp hd'
      exact hkept
  nodup := by
    have hnew : d.name ∉ store.directories.map SnapshotDirectory.name := entryOf_eq_none_iff.mp hnew
    simpa [List.nodup_append, h.nodup] using fun d' hd' heq => hnew (List.mem_map.mpr ⟨d', hd', heq⟩)

/-- **A capture keeps the store sound, and what was there.** -/
theorem Sound.after_capture (h : Sound sha ft store) {source now : PyStr} {tree copied : EnvironmentTree}
    (hsource : source ≠ []) {m : EnvironmentSnapshotManifest} {store' : EnvironmentSnapshotStore}
    (hcapture : store.capture sha ft source tree copied now = .ok (m, store')) :
    Sound sha ft store' ∧ store'.storeDir = store.storeDir ∧ store'.verify sha ft m.snapshotId = .ok m ∧
      ∀ id m', store.verify sha ft id = .ok m' → store'.verify sha ft id = .ok m' := by
  obtain ⟨digest, -, -, -, ⟨d, hd, rfl, rfl⟩ | ⟨d, hd, hkept, hname, rfl, rfl⟩⟩ := h.capture hsource hcapture
  · refine ⟨h, rfl, ?_, fun _ _ => id⟩
    rw [h.verify, hd]
    rfl
  · have hsound := h.append hkept (hname ▸ hd)
    refine ⟨hsound, rfl, ?_, ?_⟩
    · rw [hsound.verify, directory_eq, entryOf_concat, ← directory_eq, hd, if_pos hname]
      rfl
    · intro id m' hverify
      rw [h.verify] at hverify
      obtain ⟨d', hd', rfl⟩ := Option.map_eq_some_iff.mp hverify
      rw [hsound.verify, directory_eq, entryOf_concat, ← directory_eq, hd']
      rfl

theorem clone_iff {copied : EnvironmentTree} {m : EnvironmentSnapshotManifest} :
    store.clone sha ft snapshotId copied = .ok m ↔
      store.verify sha ft snapshotId = .ok m ∧ treeDigest sha ft copied.entries = .ok m.treeSha256 := by
  simp only [EnvironmentSnapshotStore.clone, bind_eq_ok, ensure_eq_ok, pure_eq_ok]
  constructor
  · rintro ⟨m', hverify, digest, hdigest, _, rfl, rfl⟩
    exact ⟨hverify, hdigest⟩
  · rintro ⟨hverify, hdigest⟩
    exact ⟨m, hverify, _, hdigest, (), rfl, rfl⟩

/-! ### Sequences of captures -/

/-- A capture: the path of a tree, the tree, what `clone_environment` makes of it, and the time. -/
structure Capture where
  source : PyStr
  source_ne_nil : source ≠ []
  tree : EnvironmentTree
  copied : EnvironmentTree
  now : PyStr

section Run

variable (sha ft)

/-- One capture. -/
def captureOne (store : EnvironmentSnapshotStore) (c : Capture) :
    Except DocumentError (EnvironmentSnapshotManifest × EnvironmentSnapshotStore) :=
  store.capture sha ft c.source c.tree c.copied c.now

/-- The store after a capture, which leaves it as it was when it fails. -/
def afterCapture (store : EnvironmentSnapshotStore) (c : Capture) : EnvironmentSnapshotStore :=
  match store.captureOne sha ft c with
  | .ok (_, store') => store'
  | .error _ => store

/-- The store after a sequence of captures. -/
def runFrom (store : EnvironmentSnapshotStore) (captures : List Capture) : EnvironmentSnapshotStore :=
  captures.foldl (afterCapture sha ft) store

variable {sha ft}

theorem Sound.step (h : Sound sha ft store) (c : Capture) : Sound sha ft (store.afterCapture sha ft c) ∧
    ∀ id m, store.verify sha ft id = .ok m → (store.afterCapture sha ft c).verify sha ft id = .ok m := by
  unfold afterCapture
  cases hcapture : store.captureOne sha ft c with
  | error error => exact ⟨h, fun _ _ => id⟩
  | ok result =>
    obtain ⟨m, store'⟩ := result
    obtain ⟨hsound, -, -, hstays⟩ := h.after_capture c.source_ne_nil hcapture
    exact ⟨hsound, hstays⟩

/-- **A run keeps the store sound, and every snapshot that it has.** -/
theorem Sound.run (h : Sound sha ft store) (captures : List Capture) :
    Sound sha ft (runFrom sha ft store captures) ∧ ∀ id m, store.verify sha ft id = .ok m →
      (runFrom sha ft store captures).verify sha ft id = .ok m := by
  induction captures generalizing store with
  | nil => exact ⟨h, fun _ _ => id⟩
  | cons c captures ih =>
    obtain ⟨hstep, hkeeps⟩ := h.step c
    obtain ⟨hsound, hstays⟩ := ih hstep
    exact ⟨hsound, fun id m hverify => hstays id m (hkeeps id m hverify)⟩

/-- A tree with the digest of a snapshot is that snapshot. -/
theorem Sound.capture_again (h : Sound sha ft store) {m : EnvironmentSnapshotManifest}
    (hverify : store.verify sha ft snapshotId = .ok m) {c : Capture}
    (hdigest : treeDigest sha ft c.tree.entries = .ok m.treeSha256) :
    store.captureOne sha ft c = .ok (m, store) := by
  rw [h.verify] at hverify
  obtain ⟨d, hd, rfl⟩ := Option.map_eq_some_iff.mp hverify
  obtain ⟨hkept, hname⟩ := h.of_directory hd
  have hthere : store.directory (py "env_" ++ d.manifest.treeSha256.take 16) = some d := by
    rw [← hkept.name, hname, hd]
  refine bind_eq_ok.mpr ⟨_, hdigest, bind_eq_ok.mpr ⟨_, makeSnapshotId_iff.mpr
    ⟨isSha256_of_treeDigest hdigest, rfl⟩, ?_⟩⟩
  rw [hthere]
  refine bind_eq_ok.mpr ⟨d.manifest, h.verify.mpr ?_, bind_eq_ok.mpr ⟨(), ensure_eq_ok.mpr rfl, rfl⟩⟩
  rw [hthere]
  rfl

/-- Another tree is refused where its name is taken. -/
theorem Sound.capture_collision (h : Sound sha ft store) {m : EnvironmentSnapshotManifest}
    (hverify : store.verify sha ft snapshotId = .ok m) {c : Capture} {digest : PyStr}
    (hdigest : treeDigest sha ft c.tree.entries = .ok digest) (hne : digest ≠ m.treeSha256)
    (hname : digest.take 16 = m.treeSha256.take 16) : ∃ error, store.captureOne sha ft c = .error error := by
  cases hcapture : store.captureOne sha ft c with
  | error error => exact ⟨error, rfl⟩
  | ok result =>
    obtain ⟨m', store'⟩ := result
    obtain ⟨digest', hdigest', hsame, hid, -⟩ := h.capture c.source_ne_nil hcapture
    obtain rfl : digest = digest' := Except.ok.inj (hdigest.symm.trans hdigest')
    obtain ⟨-, -, hthere, hstays⟩ := h.after_capture c.source_ne_nil hcapture
    rw [h.verify] at hverify
    obtain ⟨d, hd, rfl⟩ := Option.map_eq_some_iff.mp hverify
    obtain ⟨hkept, hdname⟩ := h.of_directory hd
    have hverify' := hstays snapshotId d.manifest (h.verify.mpr (by rw [hd]; rfl))
    rw [← hdname, hkept.name, ← hname, ← hid, hthere] at hverify'
    obtain rfl : m' = d.manifest := Except.ok.inj hverify'
    exact absurd hsame.symm hne

variable (sha ft) in
/-- What a sequence of captures leaves behind in a new store. -/
structure ContentAddressed (storeDir : PyStr) (captures : List Capture) : Prop where
  /-- Every directory passes `verify` under the first digits of the digest of its tree. -/
  named : ∀ d ∈ (runFrom sha ft ⟨storeDir, []⟩ captures).directories,
    treeDigest sha ft d.rootfs.entries = .ok d.manifest.treeSha256 ∧
      d.name = py "env_" ++ d.manifest.treeSha256.take 16 ∧
      (runFrom sha ft ⟨storeDir, []⟩ captures).verify sha ft d.name = .ok d.manifest
  nodup : ((runFrom sha ft ⟨storeDir, []⟩ captures).directories.map SnapshotDirectory.name).Nodup
  /-- A tree that is captured can be cloned at any later time, and only as it was. -/
  clone : ∀ c m store', (runFrom sha ft ⟨storeDir, []⟩ captures).captureOne sha ft c = .ok (m, store') →
    ∀ more copied, (runFrom sha ft store' more).clone sha ft m.snapshotId copied = .ok m ↔
      treeDigest sha ft copied.entries = treeDigest sha ft c.tree.entries
  /-- The same tree is not stored again. -/
  again : ∀ c m store', (runFrom sha ft ⟨storeDir, []⟩ captures).captureOne sha ft c = .ok (m, store') →
    ∀ more c', treeDigest sha ft c'.tree.entries = treeDigest sha ft c.tree.entries →
      (runFrom sha ft store' more).captureOne sha ft c' = .ok (m, runFrom sha ft store' more)
  /-- Another tree is refused where its name is taken. -/
  collision : ∀ id m, (runFrom sha ft ⟨storeDir, []⟩ captures).verify sha ft id = .ok m → ∀ c digest,
    treeDigest sha ft c.tree.entries = .ok digest → digest ≠ m.treeSha256 →
      digest.take 16 = m.treeSha256.take 16 →
      ∃ error, (runFrom sha ft ⟨storeDir, []⟩ captures).captureOne sha ft c = .error error

/-- **Snapshots are addressed by their content**, whatever is captured and in which order. -/
theorem content_addressed (storeDir : PyStr) (captures : List Capture) :
    ContentAddressed sha ft storeDir captures := by
  have hnil : Sound sha ft ⟨storeDir, []⟩ := sound_nil storeDir
  obtain ⟨hsound, -⟩ := hnil.run captures
  have hcaptured : ∀ c m store', (runFrom sha ft ⟨storeDir, []⟩ captures).captureOne sha ft c = .ok (m, store') →
      treeDigest sha ft c.tree.entries = .ok m.treeSha256 ∧ ∀ more, Sound sha ft (runFrom sha ft store' more) ∧
        (runFrom sha ft store' more).verify sha ft m.snapshotId = .ok m := by
    intro c m store' hcapture
    obtain ⟨digest, hdigest, rfl, -⟩ := hsound.capture c.source_ne_nil hcapture
    obtain ⟨hsound', -, hverify, -⟩ := hsound.after_capture c.source_ne_nil hcapture
    refine ⟨hdigest, fun more => ?_⟩
    obtain ⟨hrun, hstays⟩ := hsound'.run more
    exact ⟨hrun, hstays _ m hverify⟩
  constructor
  · intro d hd
    have hkept := hsound.kept d hd
    refine ⟨hkept.digest, hkept.name, hsound.verify.mpr ?_⟩
    rw [directory_eq, (entryOf_eq_some_iff hsound.nodup).mpr ⟨hd, rfl⟩]
    rfl
  · exact hsound.nodup
  · intro c m store' hcapture more copied
    obtain ⟨hdigest, hlater⟩ := hcaptured c m store' hcapture
    rw [clone_iff, hdigest]
    exact and_iff_right (hlater more).2
  · intro c m store' hcapture more c' hsame
    obtain ⟨hdigest, hlater⟩ := hcaptured c m store' hcapture
    obtain ⟨hsound', hverify⟩ := hlater more
    exact hsound'.capture_again hverify (hsame.trans hdigest)
  · intro id m hverify c digest hdigest hne hname
    exact hsound.capture_collision hverify hdigest hne hname

end Run

end EnvironmentSnapshotStore

end TaintForge
