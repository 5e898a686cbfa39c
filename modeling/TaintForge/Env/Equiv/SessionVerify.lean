import TaintForge.Env.Equiv.SessionHistory

/-!
# A session that is left alone passes verification

`verify` reads everything that is stored: the snapshots, the chain of environment manifests, the attempts, and what
each iteration has left behind.  As long as nothing but the calls of the controller, the runner's claims and further
snapshots reach these files, it accepts them after every call.

* `IterationController.Accounted`: what is stored of one iteration.
* `IterationController.Intact`: what is stored of a session.
* `IterationController.Intact.verify`: an intact session passes.
* `IterationController.Intact.prepare`, `IterationController.Intact.complete`: the calls keep it intact.
-/

namespace TaintForge

/-! ### The manifest that a repair derives -/

/-- **Whatever plan and report it is made from, the next manifest is one that its constructor accepts.** -/
theorem derive_construct {sha : Sha256} {ft : FloatText} {iso : IsoFormat} {display : PyDisplay}
    {inputs : RepairInputs} {e : EnvironmentManifest} (hparent : inputs.parent.construct iso = .ok ())
    (hints : ∀ n ∈ inputs.parent.integers, n.IsInt) (h : inputs.derive sha ft iso display = .ok e) :
    e.construct iso = .ok () ∧ (∀ n ∈ e.integers, n.IsInt) ∧ e.sampleSha256 = inputs.parent.sampleSha256 ∧
      e.rootfsSnapshotId = inputs.rootfsSnapshotId := by
  obtain ⟨hentries, hinit⟩ := EnvironmentManifest.construct_iff.mp hparent
  obtain ⟨plan, _, items, hderivation⟩ := derive_eq_ok.mp h
  obtain ⟨fs, recorded, -, hrecords, -, -, hnext⟩ := hderivation.records
  have hvalid : Entries inputs.parent.entries := ⟨hentries, (EnvironmentManifest.postInit_iff.mp hinit).nodup⟩
  obtain ⟨decisions, -, -, hhistory, -⟩ :=
    recordResults_ok (HistoryOf.start hvalid) rfl List.nodup_nil hrecords
  simp only [EnvironmentManifest.derive, bind_eq_ok, pure_eq_ok] at hnext
  obtain ⟨_, -, _, hnextInit, rfl⟩ := hnext
  refine ⟨EnvironmentManifest.construct_iff.mpr ⟨?_, hnextInit⟩, ?_, rfl, rfl⟩
  · intro entry hentry
    exact hhistory.valid.construct entry ((List.mem_insertionSort _).mp hentry)
  · intro n hn
    simp only [EnvironmentManifest.integers, List.cons_append, List.nil_append, List.mem_cons, Option.toList_some,
      List.not_mem_nil, or_false] at hn
    rcases hn with rfl | rfl | rfl | rfl
    · exact ⟨2, rfl⟩
    · exact ⟨1, rfl⟩
    · exact ⟨_, rfl⟩
    · exact hints _ (by simp [EnvironmentManifest.integers])

namespace IterationController

variable {host : Host} {sessionDir : PyStr} {disk disk' : SessionDisk} {m : SessionManifest}

/-! ### What is stored of an iteration -/

/-- The evidence of a completed iteration: the files that its record names, and the result of its attempt. -/
structure Evident (host : Host) (d : SessionDisk) (bundle : ArtifactBundle) (observationPath listingPath : PyStr)
    (result : AttemptResult) (o : ProgressOracle.IterationObservation) : Prop where
  loaded : loadObservation host d observationPath = .ok o
  listing : verifyArtifactManifest host (d.artifactManifest listingPath) bundle = .ok ()
  digest : ∃ text, d.observation observationPath = some text ∧
    result.progress.observationSha256 = some (host.sha.hexdigest text)
  progress : result.progress.goalReached = o.goalReached ∧ result.progress.oracleReason = o.goalReason ∧
    result.progress.guestEventsTotal.value = o.metrics.guestEventsTotal

/-- **What is stored of an iteration**: its snapshot, its manifest, its attempt, its record, and its evidence. -/
structure Accounted (host : Host) (d : SessionDisk) (m : SessionManifest) (chain : List EnvironmentManifest)
    (attempts : List AttemptEntry) (i : ℕ) (r : IterationRecord) : Prop where
  snapshot : ∃ s, d.snapshots.verify host.sha host.ft r.environmentSnapshotId = .ok s
  manifest : ∃ e, chain[i]? = some e ∧ e.manifestId host.sha host.ft = .ok r.environmentManifestId ∧
    e.rootfsSnapshotId = r.environmentSnapshotId ∧ e.sampleSha256 = m.sampleSha256
  record : ∃ directory, d.iteration (iterationPath i) = some directory ∧ directory.record = r.toDict
  written : r.PlainProgress ∧ Writable r.toDict
  attempt : ∃ e c, attempts[i]? = some e ∧ e.contract = some c ∧ validateContractBinding m r c = .ok () ∧
    (r.state = .prepared → e.result = none)
  evidence : r.state = .completed → ∃ e result directory bundle o, attempts[i]? = some e ∧ e.result = some result ∧
    d.iteration (iterationPath i) = some directory ∧ directory.artifacts = some bundle ∧
    Evident host d bundle (iterationPath i ++ py "/observation.json")
      (iterationPath i ++ py "/artifacts/artifact_manifest.json") result o

/-- The attempt of a name is found in its place. -/
theorem entry_of_getElem {attempts : List AttemptEntry} (hnodup : (attempts.map AttemptEntry.name).Nodup)
    {i : ℕ} {e : AttemptEntry} (h : attempts[i]? = some e) : AttemptStore.entry attempts e.name = some e := by
  rw [AttemptStore.entry, entryOf_eq_some_iff hnodup]
  exact ⟨List.mem_of_getElem? h, rfl⟩

/-- **What is stored of an iteration is accepted.** -/
theorem Accounted.verifyRecord {chain : List EnvironmentManifest} {attempts : List AttemptEntry} {i : ℕ}
    {r : IterationRecord} (hplaced : Placed i r) (hvalid : r.Valid)
    (hstore : host.resolve m.snapshotStore = disk.snapshots.storeDir)
    (hattempts : AttemptStore.Holds host.sha host.ft host.iso disk.attempts attempts)
    (hname : ∀ e, attempts[i]? = some e → e.name = r.attemptId)
    (h : Accounted host disk m chain attempts i r) :
    ∃ result o, verifyRecord host disk m chain r = .ok (result, o) ∧
      (∀ e, attempts[i]? = some e → result = e.result) ∧
      (r.state = .completed → ∃ o', o = some o' ∧
        loadObservation host disk (iterationPath i ++ py "/observation.json") = .ok o') := by
  obtain ⟨s, hsnapshot⟩ := h.snapshot
  obtain ⟨manifest, hget, hid, hrootfs, hsample⟩ := h.manifest
  obtain ⟨directory, hdirectory, hrecord⟩ := h.record
  obtain ⟨e, c, hentry, hcontract, hbinding, hprepared⟩ := h.attempt
  have hfound : AttemptStore.entry attempts r.attemptId = some e := by
    rw [← hname e hentry]
    exact entry_of_getElem hattempts.nodup hentry
  have hversion : chain[r.environmentManifestVersion.toNat]? = some manifest := by
    rw [hplaced.version, Int.toNat_natCast]
    exact hget
  have hread : IterationRecord.fromDict directory.record = .ok r :=
    hrecord ▸ IterationRecord.fromDict_toDict_iff.mpr hvalid
  have hsame := IterationRecord.sameAs_self h.written.1 h.written.2
  have hsnapshots : snapshotStore host disk m = disk.snapshots := if_pos hstore
  have hresult : ∀ e', attempts[i]? = some e' → e.result = e'.result := by
    intro e' he'
    rw [hentry, Option.some.injEq] at he'
    rw [he']
  cases hstate : r.state with
  | prepared =>
    have hnone := hprepared hstate
    have hverify : disk.attempts.verifyAttempt host.sha host.ft host.iso r.attemptId (r.state = .completed) =
        .ok (c, none) := by
      rw [hattempts.verifyAttempt, hstate]
      exact ⟨⟨e, hfound, hcontract, hnone⟩, by simp⟩
    refine ⟨none, none, ?_, ?_, fun hcompleted => absurd hcompleted (by simp)⟩
    · simp only [IterationController.verifyRecord, bind_eq_ok, passOn_eq_ok, ofStore_eq_ok, require_eq_ok,
        found_eq_ok, hsnapshots]
      refine ⟨s, hsnapshot, (), hplaced.version.trans hplaced.index.symm, manifest, hversion, _, hid, (), rfl, (),
        hrootfs, (), hsample, directory, hplaced.directory ▸ hdirectory, r, hread, (), hsame, (c, none), hverify,
        (), hbinding, (), hplaced.attemptContract, ?_⟩
      rw [if_neg (by simp [hstate])]
      exact bind_eq_ok.mpr ⟨(), require_eq_ok.mpr rfl, rfl⟩
    · intro e' he'
      rw [← hresult e' he', hnone]
  | completed =>
    obtain ⟨e', result, directory', bundle, o, hentry', hresult', hdirectory', hbundle, hevident⟩ :=
      h.evidence hstate
    rw [hentry, Option.some.injEq] at hentry'
    rw [hdirectory, Option.some.injEq] at hdirectory'
    subst hentry' hdirectory'
    obtain ⟨hobservation, hlisting, hattemptResult, -⟩ := hplaced.completed hstate
    obtain ⟨text, htext, hdigest⟩ := hevident.digest
    have hverify : disk.attempts.verifyAttempt host.sha host.ft host.iso r.attemptId (r.state = .completed) =
        .ok (c, some result) := by
      rw [hattempts.verifyAttempt]
      exact ⟨⟨e, hfound, hcontract, hresult'⟩, by simp⟩
    have hcompleted : verifyCompleted host disk directory r (some result) = .ok o := by
      simp only [verifyCompleted, bind_eq_ok, passOn_eq_ok, require_eq_ok, found_eq_ok, pure_eq_ok, hobservation,
        hlisting, hattemptResult, Option.some.injEq, exists_eq_left']
      exact ⟨o, hevident.loaded, bundle, hbundle, (), hevident.listing, text, htext, (), hdigest, (),
        hevident.progress, (), trivial, rfl⟩
    refine ⟨some result, some o, ?_, ?_, fun _ => ⟨o, rfl, hevident.loaded⟩⟩
    · simp only [IterationController.verifyRecord, bind_eq_ok, passOn_eq_ok, ofStore_eq_ok, require_eq_ok,
        found_eq_ok, hsnapshots]
      refine ⟨s, hsnapshot, (), hplaced.version.trans hplaced.index.symm, manifest, hversion, _, hid, (), rfl, (),
        hrootfs, (), hsample, directory, hplaced.directory ▸ hdirectory, r, hread, (), hsame, (c, some result),
        hverify, (), hbinding, (), hplaced.attemptContract, ?_⟩
      rw [if_pos hstate]
      exact bind_eq_ok.mpr ⟨o, hcompleted, rfl⟩
    · intro e' he'
      rw [← hresult e' he', hresult']

/-! ### What is stored of a session -/

/-- **What is stored of a session that was left alone.** -/
structure Intact (host : Host) (dir : PyStr) (d : SessionDisk) (m : SessionManifest)
    (chain : List EnvironmentManifest) (entries : List AttemptEntry) : Prop where
  stands : Stands dir d m
  storeDir : host.resolve m.snapshotStore = d.snapshots.storeDir
  snapshots : d.snapshots.Sound host.sha host.ft
  manifests : EnvironmentManifestStore.Holds host.sha host.ft host.iso d.manifests chain
  versions : chain.length = max 1 m.iterations.length
  seed : ∃ e s, chain[0]? = some e ∧ e.manifestId host.sha host.ft = .ok m.seedEnvironmentManifestId ∧
    e.rootfsSnapshotId = m.seedSnapshotId ∧ e.sampleSha256 = m.sampleSha256 ∧
    d.snapshots.verify host.sha host.ft m.seedSnapshotId = .ok s
  attempts : AttemptStore.Holds host.sha host.ft host.iso d.attempts entries
  names : entries.map AttemptEntry.name = m.iterations.map IterationRecord.attemptId
  accounted : ∀ (i : ℕ) (r : IterationRecord), m.iterations[i]? = some r → Accounted host d m chain entries i r
  stopped : ∀ (i : ℕ) (r : IterationRecord), m.iterations[i]? = some r → i + 1 = m.iterations.length →
    r.state = .completed → ∃ e result o reason, entries[i]? = some e ∧ e.result = some result ∧
      loadObservation host d (iterationPath i ++ py "/observation.json") = .ok o ∧
      decideStopReason host d m i o = .ok reason ∧ m.state = (resolveTransition result.outcome reason).1 ∧
      m.stopReason = (resolveTransition result.outcome reason).2.map ProgressOracle.StopReason.value ∧
      r.stopReason = m.stopReason

variable {chain : List EnvironmentManifest} {attempts : List AttemptEntry}

/-- The attempt of an iteration has its name. -/
theorem Intact.name (h : Intact host sessionDir disk m chain attempts) {i : ℕ} {r : IterationRecord}
    (hr : m.iterations[i]? = some r) {e : AttemptEntry} (he : attempts[i]? = some e) : e.name = r.attemptId := by
  have hnames := congrArg (fun names => names[i]?) h.names
  simp only [List.getElem?_map, hr, he, Option.map_some, Option.some.injEq] at hnames
  exact hnames

/-- **The attempts are listed in the order of their numbers.** -/
theorem Intact.listAttemptIds (h : Intact host sessionDir disk m chain attempts) :
    disk.attempts.listAttemptIds = .ok (m.iterations.map IterationRecord.attemptId) := by
  have hdirectories : disk.attempts.directories.map AttemptDirectory.name =
      m.iterations.map IterationRecord.attemptId := by
    rw [h.attempts.directories, List.map_map, ← h.names]
    rfl
  have hplaced : ∀ (i : ℕ) id, (m.iterations.map IterationRecord.attemptId)[i]? = some id →
      isAttemptId id ∧ attemptIndexOf id = i := by
    intro i id hid
    rw [List.getElem?_map] at hid
    obtain ⟨r, hr, rfl⟩ := Option.map_eq_some_iff.mp hid
    exact ⟨(h.stands.control.placed i r hr).attemptId, (h.stands.control.placed i r hr).attemptIndex⟩
  have hsorted : (m.iterations.map IterationRecord.attemptId).Pairwise
      fun a b => attemptIndexOf a ≤ attemptIndexOf b := by
    rw [List.pairwise_iff_getElem]
    intro i j hi hj hij
    rw [(hplaced i _ (List.getElem?_eq_getElem hi)).2, (hplaced j _ (List.getElem?_eq_getElem hj)).2]
    exact hij.le
  simp only [AttemptStore.listAttemptIds, bind_eq_ok, pure_eq_ok, hdirectories]
  refine ⟨(m.iterations.map IterationRecord.attemptId).map fun _ => (), ?_, ?_⟩
  · rw [mapOk_ok, List.forall₂_map_right_iff, List.forall₂_same]
    intro id hid
    obtain ⟨i, hi⟩ := List.mem_iff_getElem?.mp hid
    exact ensure_eq_ok.mpr (hplaced i id hi).1
  · exact hsorted.insertionSort_eq

/-- **The loop over the records.** -/
theorem verifyRecords_ok {records : List IterationRecord}
    (h : ∀ r ∈ records, ∃ out, verifyRecord host disk m chain r = .ok out) :
    ∃ outs, verifyRecords host disk m chain records = .ok outs ∧ outs.length = records.length ∧
      ∀ (i : ℕ) r, records[i]? = some r → ∃ out, outs[i]? = some out ∧ verifyRecord host disk m chain r = .ok out := by
  induction records with
  | nil => exact ⟨[], rfl, rfl, fun i r hr => by simp at hr⟩
  | cons r rest ih =>
    obtain ⟨out, hout⟩ := h r List.mem_cons_self
    obtain ⟨outs, houts, hlength, hget⟩ := ih fun r' hr' => h r' (List.mem_cons_of_mem r hr')
    refine ⟨out :: outs, ?_, by simp [hlength], ?_⟩
    · simp only [verifyRecords, bind_eq_ok, pure_eq_ok]
      exact ⟨out, hout, outs, houts, rfl⟩
    · intro i r' hr'
      cases i with
      | zero =>
        obtain rfl := Option.some.inj hr'
        exact ⟨out, rfl, hout⟩
      | succ i => exact hget i r' hr'

theorem Intact.verifyRecord (h : Intact host sessionDir disk m chain attempts) {i : ℕ} {r : IterationRecord}
    (hr : m.iterations[i]? = some r) : ∃ result o, verifyRecord host disk m chain r = .ok (result, o) ∧
      (∀ e, attempts[i]? = some e → result = e.result) ∧
      (r.state = .completed → ∃ o', o = some o' ∧
        loadObservation host disk (iterationPath i ++ py "/observation.json") = .ok o') :=
  (h.accounted i r hr).verifyRecord (h.stands.control.placed i r hr)
    (h.stands.control.valid.records r (List.mem_of_getElem? hr)) h.storeDir h.attempts fun _ he => h.name hr he

/-- **What was verified agrees with the state of the session.** -/
theorem Intact.terminal (h : Intact host sessionDir disk m chain attempts)
    {outs : List (Option AttemptResult × Option ProgressOracle.IterationObservation)}
    (hlength : outs.length = m.iterations.length)
    (houts : ∀ (i : ℕ) r, m.iterations[i]? = some r → ∃ out, outs[i]? = some out ∧
      IterationController.verifyRecord host disk m chain r = .ok out) :
    ∃ reason, latestStopReason host disk m (outs.getLast?.bind Prod.snd) = .ok reason ∧
      verifyTerminalState m (outs.getLast?.bind Prod.fst) reason = .ok () := by
  unfold latestStopReason verifyTerminalState
  cases hlast : m.iterations.getLast? with
  | none =>
    obtain ⟨reason, hstate, hreason, hstop⟩ := h.stands.control.reason
    rw [hlast] at hstop
    have hnone : m.stopReason = none := hstop.symm
    rw [hnone] at hreason
    obtain rfl : reason = none := by
      cases reason with
      | none => rfl
      | some _ => cases hreason
    refine ⟨none, rfl, require_eq_ok.mpr ⟨hstate, hnone⟩⟩
  | some r =>
    have hindex : m.iterations[m.iterations.length - 1]? = some r := by
      rw [← List.getLast?_eq_getElem?, hlast]
    have hpos : m.iterations.length - 1 + 1 = m.iterations.length := by
      have := (List.getElem?_eq_some_iff.mp hindex).1
      omega
    have hplaced := h.stands.control.placed _ r hindex
    obtain ⟨result, o, hverify, hresult, hobservation⟩ := h.verifyRecord hindex
    obtain ⟨out, hout, hout'⟩ := houts _ r hindex
    obtain rfl := Except.ok.inj (hverify.symm.trans hout')
    have hget : outs.getLast? = some (result, o) := by
      rw [List.getLast?_eq_getElem?, hlength, hout]
    rw [hget]
    obtain ⟨e, c, hentry, -, -, hnone⟩ := (h.accounted _ r hindex).attempt
    cases hstate : r.state with
    | prepared =>
      obtain ⟨-, -, -, -, hstop⟩ := hplaced.prepared hstate
      obtain ⟨reason, hsession, hreason, hlastStop⟩ := h.stands.control.reason
      rw [hlast] at hlastStop
      have hsessionStop : m.stopReason = none := hlastStop.symm.trans hstop
      rw [hsessionStop] at hreason
      obtain rfl : reason = none := by
        cases reason with
        | none => rfl
        | some _ => cases hreason
      refine ⟨none, ?_, ?_⟩
      · simp [hstate]
      · simp only [if_pos hstate, require_eq_ok]
        exact ⟨hsession, hsessionStop, hstop, (hresult e hentry).trans (hnone hstate)⟩
    | completed =>
      obtain ⟨e', stored, o', reason, hentry', hstored, hload, hdecide, hsession, hsessionStop, hrecordStop⟩ :=
        h.stopped _ r hindex hpos hstate
      obtain ⟨o'', rfl, hload'⟩ := hobservation hstate
      obtain rfl := Except.ok.inj (hload.symm.trans hload')
      obtain rfl : result = some stored := (hresult e' hentry').trans hstored
      refine ⟨reason, ?_, ?_⟩
      · simp only [if_pos hstate, bind_eq_ok, passOn_eq_ok, found_eq_ok]
        refine ⟨o', rfl, ?_⟩
        rw [hplaced.index, Int.toNat_natCast]
        exact hdecide
      · dsimp only
        rw [if_neg (by simp [hstate])]
        simp only [bind_eq_ok, found_eq_ok, require_eq_ok]
        exact ⟨stored, rfl, hsession, hsessionStop, hrecordStop.trans hsessionStop⟩

/-- **An intact session passes verification.** -/
theorem Intact.verify (h : Intact host sessionDir disk m chain attempts) (hdir : IsSessionDir host sessionDir)
    (hlimit : m.maxIterations ≤ 10000) : verify host sessionDir disk = .ok m := by
  obtain ⟨e, s, hseed, hid, hrootfs, hsample, hsnapshot⟩ := h.seed
  have hne : chain ≠ [] := by
    rintro rfl
    cases hseed
  have hbudget := h.stands.control.budget
  have hversions := h.versions
  have hchain : disk.manifests.verifyChain host.sha host.ft host.iso none = .ok chain := by
    rw [h.manifests.verifyChain hne, List.take_of_length_le]
    omega
  have hrecords : ∀ r ∈ m.iterations, ∃ out, IterationController.verifyRecord host disk m chain r = .ok out := by
    intro r hr
    obtain ⟨i, hi⟩ := List.mem_iff_getElem?.mp hr
    obtain ⟨result, o, hverify, -⟩ := h.verifyRecord hi
    exact ⟨(result, o), hverify⟩
  obtain ⟨outs, houts, hlength, hget⟩ := verifyRecords_ok hrecords
  obtain ⟨reason, hreason, hterminal⟩ := h.terminal hlength hget
  simp only [IterationController.verify, bind_eq_ok, passOn_eq_ok, ofStore_eq_ok, require_eq_ok, found_eq_ok,
    pure_eq_ok]
  have hsnapshots : snapshotStore host disk m = disk.snapshots := if_pos h.storeDir
  exact ⟨m, h.stands.load hdir, s, hsnapshots ▸ hsnapshot, chain, hchain, e,
    List.head?_eq_getElem? ▸ hseed, _, hid, (), rfl, (), hrootfs, (), hsample, _, h.listAttemptIds, (), rfl, outs, houts,
    (), hversions, reason, hreason, (), hterminal, rfl⟩

/-! ### What one iteration does not touch -/

/-- The files of an iteration are the same. -/
structure SameFiles (i : ℕ) (d d' : SessionDisk) : Prop where
  iteration : d'.iteration (iterationPath i) = d.iteration (iterationPath i)
  observation : d'.observation (iterationPath i ++ py "/observation.json") =
    d.observation (iterationPath i ++ py "/observation.json")
  artifactManifest : d'.artifactManifest (iterationPath i ++ py "/artifacts/artifact_manifest.json") =
    d.artifactManifest (iterationPath i ++ py "/artifacts/artifact_manifest.json")

/-- The other snapshots are still there. -/
def KeepsSnapshots (host : Host) (d d' : SessionDisk) : Prop :=
  ∀ id s, d.snapshots.verify host.sha host.ft id = .ok s → d'.snapshots.verify host.sha host.ft id = .ok s

theorem loadObservation_congr {path : PyStr} (h : disk'.observation path = disk.observation path) :
    loadObservation host disk' path = loadObservation host disk path := by
  unfold loadObservation
  rw [h]

theorem Evident.frame {i : ℕ} {bundle : ArtifactBundle} {result : AttemptResult}
    {o : ProgressOracle.IterationObservation} (hfiles : SameFiles i disk disk')
    (h : Evident host disk bundle (iterationPath i ++ py "/observation.json")
      (iterationPath i ++ py "/artifacts/artifact_manifest.json") result o) :
    Evident host disk' bundle (iterationPath i ++ py "/observation.json")
      (iterationPath i ++ py "/artifacts/artifact_manifest.json") result o where
  loaded := by
    rw [loadObservation_congr hfiles.observation]
    exact h.loaded
  listing := by
    rw [hfiles.artifactManifest]
    exact h.listing
  digest := by
    rw [hfiles.observation]
    exact h.digest
  progress := h.progress

/-- **What is stored of an iteration stays**, when its files do and the stores only grow. -/
theorem Accounted.frame {n : SessionManifest} {chain chain' : List EnvironmentManifest}
    {attempts attempts' : List AttemptEntry} {i : ℕ} {r : IterationRecord} (hextends : Extends m n)
    (hfiles : SameFiles i disk disk') (hsnapshots : KeepsSnapshots host disk disk')
    (hchain : ∀ e, chain[i]? = some e → chain'[i]? = some e)
    (hattempts : ∀ e, attempts[i]? = some e → attempts'[i]? = some e)
    (h : Accounted host disk m chain attempts i r) : Accounted host disk' n chain' attempts' i r where
  snapshot := by
    obtain ⟨s, hs⟩ := h.snapshot
    exact ⟨s, hsnapshots _ s hs⟩
  manifest := by
    obtain ⟨e, he, hid, hrootfs, hsample⟩ := h.manifest
    refine ⟨e, hchain e he, hid, hrootfs, ?_⟩
    rw [hextends.session]
    exact hsample
  record := by
    rw [hfiles.iteration]
    exact h.record
  written := h.written
  attempt := by
    obtain ⟨e, c, he, hc, hbinding, hprepared⟩ := h.attempt
    refine ⟨e, c, hattempts e he, hc, ?_, hprepared⟩
    rw [hextends.session]
    exact hbinding
  evidence hstate := by
    obtain ⟨e, result, directory, bundle, o, he, hresult, hdirectory, hbundle, hevident⟩ := h.evidence hstate
    exact ⟨e, result, directory, bundle, o, hattempts e he, hresult, hfiles.iteration.trans hdirectory, hbundle,
      hevident.frame hfiles⟩

/-! ### The next environment -/

/-- **The environment of the next iteration**, and the chain with its manifest. -/
structure Extended (host : Host) (d : SessionDisk) (m : SessionManifest) (chain chain' : List EnvironmentManifest)
    (e : NextEnvironment) : Prop where
  sound : e.snapshots.Sound host.sha host.ft
  storeDir : e.snapshots.storeDir = d.snapshots.storeDir
  keeps : ∀ id s, d.snapshots.verify host.sha host.ft id = .ok s → e.snapshots.verify host.sha host.ft id = .ok s
  captured : ∃ s, e.snapshots.verify host.sha host.ft e.snapshotId = .ok s
  manifests : EnvironmentManifestStore.Holds host.sha host.ft host.iso e.manifests chain'
  prior : ∀ (i : ℕ) x, chain[i]? = some x → chain'[i]? = some x
  length : chain'.length = m.iterations.length + 1
  last : chain'[m.iterations.length]? = some e.manifest
  sample : e.manifest.sampleSha256 = m.sampleSha256

/-- A manifest of the chain is loaded under its version. -/
theorem load_of_getElem {store : EnvironmentManifestStore} (h : EnvironmentManifestStore.Holds host.sha host.ft
    host.iso store chain) {version : ℕ} {e loaded : EnvironmentManifest} (he : chain[version]? = some e)
    (hload : store.load host.sha host.ft host.iso (.int version) = .ok loaded) : loaded = e := by
  have hkept := h.kept version e he
  have hconvertible : convertible version := by
    have hc := hkept.storable.convertible
    rwa [hkept.version] at hc
  exact Except.ok.inj (hload.symm.trans ((h.load rfl hconvertible).1 e he))

theorem Intact.seedEnvironment (h : Intact host sessionDir disk m chain attempts) {e : NextEnvironment}
    (hempty : m.iterations = []) (henvironment : seedEnvironment host disk m = .ok e) :
    Extended host disk m chain chain e := by
  obtain ⟨seed, s, hseed, -, -, hsample, hsnapshot⟩ := h.seed
  have hsnapshots : snapshotStore host disk m = disk.snapshots := if_pos h.storeDir
  simp only [IterationController.seedEnvironment, bind_eq_ok, ofStore_eq_ok, passOn_eq_ok, require_eq_ok, pure_eq_ok]
    at henvironment
  obtain ⟨loaded, hload, -, -, -, -, rfl⟩ := henvironment
  obtain rfl := load_of_getElem h.manifests hseed hload
  have hlength := h.versions
  rw [hempty] at hlength
  exact ⟨hsnapshots ▸ h.snapshots, by rw [hsnapshots], by rw [hsnapshots]; exact fun _ _ => id,
    ⟨s, hsnapshots ▸ hsnapshot⟩, h.manifests, fun _ _ => id, by rw [hempty]; exact hlength, by rw [hempty]; exact hseed,
    hsample⟩

theorem Intact.repairedEnvironment (h : Intact host sessionDir disk m chain attempts) {p : Preparation}
    {e : NextEnvironment} {previous : IterationRecord} {index : ℕ} (hfollows : Follows m e)
    (hprevious : m.iterations[index]? = some previous) (hindex : m.iterations.length = index + 1)
    (henvironment : repairedEnvironment host p disk m m.iterations.length previous = .ok e) :
    Extended host disk m chain (chain ++ [e.manifest]) e := by
  have hsnapshots : snapshotStore host disk m = disk.snapshots := if_pos h.storeDir
  simp only [IterationController.repairedEnvironment, bind_eq_ok, ofStore_eq_ok, passOn_eq_ok, require_eq_ok,
    pure_eq_ok] at henvironment
  obtain ⟨_, -, bundle, -, requirementsFile, -, planFile, -, path, -, parent, hload, ⟨contract, result⟩, -, result, -,
    _, -, _, -, id, hid, _, rfl, _, -, ⟨snapshotId, next, snapshots⟩, hbuild, _, hsave, rfl⟩ := henvironment
  simp only [buildRepairedSnapshot, bind_eq_ok, passOn_eq_ok, ofBuilder_eq_ok, pure_eq_ok, Prod.mk.injEq] at hbuild
  obtain ⟨_, -, ⟨plan, report, rootfs⟩, -, ⟨capture, store⟩, hcapture, text, -, derived, hderive, rfl, rfl, rfl⟩ :=
    hbuild
  obtain ⟨held, hheld, -, -, hheldSample⟩ := (h.accounted index previous hprevious).manifest
  rw [(h.stands.control.placed index previous hprevious).version] at hload
  obtain rfl := load_of_getElem h.manifests hheld hload
  have hkept := h.manifests.kept index parent hheld
  have hderive' : RepairInputs.derive host.sha host.ft host.iso host.display ⟨_, _, _, _, _, _⟩ = .ok derived :=
    hderive
  obtain ⟨hconstruct, hints, hsample, -⟩ :=
    derive_construct hkept.construct (fun n hn => (PyInt.storable_iff.mp (hkept.storable.1 n hn)).1) hderive'
  have hlength : chain.length = m.iterations.length := by
    rw [h.versions, hindex]
    omega
  rw [hsnapshots] at hcapture
  obtain ⟨hsound, hstoreDir, hverify, hkeeps⟩ := h.snapshots.after_capture p.stagingPath_ne_nil hcapture
  rcases h.manifests.save ⟨derived, hconstruct, p.random⟩ with ⟨error, herror, -⟩ | ⟨_, n, existing, -, hn, hget, -⟩ |
    ⟨_, -, hnew⟩
  · rw [hsave] at herror
    cases herror
  · -- The version of the new manifest is not in the chain yet.
    have hversion : (n : ℤ) = m.iterations.length := hn.symm.trans hfollows.version
    have hlt := (List.getElem?_eq_some_iff.mp hget).1
    omega
  · obtain ⟨-, hholds⟩ := hnew hints
    refine ⟨hsound, hstoreDir, hkeeps, ⟨capture, hverify⟩, hholds, fun i x hx => ?_, ?_, ?_, hsample.trans hheldSample⟩
    · exact getElem?_concat_iff.mpr (Or.inl hx)
    · rw [List.length_append, List.length_singleton, hlength]
    · exact getElem?_concat_iff.mpr (Or.inr ⟨hlength.symm, rfl⟩)

/-- **The environment of the next iteration extends what is stored.** -/
theorem Intact.nextEnvironment (h : Intact host sessionDir disk m chain attempts) {p : Preparation}
    {e : NextEnvironment} (henvironment : nextEnvironment host p disk m = .ok e) :
    ∃ chain', Extended host disk m chain chain' e := by
  have hfollows := h.stands.control.follows henvironment
  unfold IterationController.nextEnvironment at henvironment
  cases hlast : m.iterations.getLast? with
  | none =>
    rw [hlast] at henvironment
    exact ⟨chain, h.seedEnvironment (List.getLast?_eq_none_iff.mp hlast) henvironment⟩
  | some previous =>
    rw [hlast] at henvironment
    have hindex : m.iterations[m.iterations.length - 1]? = some previous := by
      rw [← List.getLast?_eq_getElem?, hlast]
    have hpos : m.iterations.length = m.iterations.length - 1 + 1 := by
      have := (List.getElem?_eq_some_iff.mp hindex).1
      omega
    exact ⟨_, h.repairedEnvironment hfollows hindex hpos henvironment⟩

/-! ### A prepared iteration -/

/-- The fields of the contract of the next attempt. -/
structure ContractFor (host : Host) (m : SessionManifest) (e : EnvironmentManifest) (c : AttemptContract) : Prop where
  init : c.postInit host.iso = .ok ()
  index : c.attemptIndex = .int m.iterations.length
  versions : c.schemaVersion = .int 1 ∧ c.contractVersion = .int 1
  environment : c.environmentManifestVersion = e.manifestVersion
  session : c.sampleSha256 = m.sampleSha256 ∧ c.packedBinarySha256 = m.packedBinarySha256 ∧ c.goalId = m.goalId
  initialStage : c.initialStage = .preOepDiscovery

theorem contractFor {e : EnvironmentManifest} {now : PyStr} {c : AttemptContract}
    (h : nextContract host m m.iterations.length e now = .ok c) : ContractFor host m e c := by
  obtain ⟨-, -, hcreate⟩ := nextContract_ok h
  generalize c.environmentManifestId = id at hcreate
  simp only [AttemptContract.create, bind_eq_ok, pure_eq_ok] at hcreate
  obtain ⟨attemptId, -, _, hinit, rfl⟩ := hcreate
  exact ⟨hinit, rfl, ⟨rfl, rfl⟩, rfl, ⟨rfl, rfl, rfl⟩, rfl⟩

/-- The attempts after the first contract of an attempt was written. -/
theorem withContract_new {entries : List AttemptEntry} {c : AttemptContract}
    (hnew : AttemptStore.entry entries c.attemptId = none) :
    AttemptStore.withContract (AttemptStore.prepared entries c.attemptId) c =
      entries ++ [⟨c.attemptId, some c, none⟩] := by
  have hold : ∀ e ∈ entries, (if e.name = c.attemptId then e.setContract c else e) = e := by
    intro e he
    apply if_neg
    intro heq
    exact entryOf_eq_none_iff.mp hnew (List.mem_map.mpr ⟨e, he, heq⟩)
  rw [AttemptStore.prepared, hnew, Option.isSome_none, if_neg (by simp), AttemptStore.withContract, updateKey,
    List.map_append, List.map_congr_left hold, List.map_id', List.map_singleton, if_pos rfl]
  rfl

/-- **The attempts after the contract of the next attempt was saved.** -/
theorem Intact.saveContract (h : Intact host sessionDir disk m chain attempts) {e : EnvironmentManifest} {now : PyStr}
    {c : AttemptContract} (hversion : e.manifestVersion.IsInt)
    (hcontract : nextContract host m m.iterations.length e now = .ok c)
    (hsaved : (disk.attempts.saveContract host.sha host.ft host.iso c).1 = .ok ()) :
    AttemptStore.Holds host.sha host.ft host.iso (disk.attempts.saveContract host.sha host.ft host.iso c).2
      (attempts ++ [⟨c.attemptId, some c, none⟩]) := by
  have hfields := contractFor hcontract
  have hindex := attemptIndexOf_create (nextContract_ok hcontract).2.2
  have hnew : AttemptStore.entry attempts c.attemptId = none := by
    apply entryOf_eq_none_iff.mpr
    rw [h.names]
    intro hmem
    obtain ⟨r, hr, hid⟩ := List.mem_map.mp hmem
    obtain ⟨i, hi⟩ := List.mem_iff_getElem?.mp hr
    have hplaced := (h.stands.control.placed i r hi).attemptIndex
    have hlt := (List.getElem?_eq_some_iff.mp hi).1
    rw [hid, hindex] at hplaced
    omega
  have hints : ∀ n ∈ c.integers, n.IsInt := by
    simp only [AttemptContract.integers, hfields.versions, hfields.index, hfields.environment, List.forall_mem_cons,
      List.not_mem_nil, IsEmpty.forall_iff, implies_true, and_true]
    exact ⟨⟨1, rfl⟩, ⟨1, rfl⟩, ⟨_, rfl⟩, hversion⟩
  rcases h.attempts.saveContract hfields.init hints with ⟨⟨error, herror⟩, -⟩ | ⟨-, first, hfirst, -⟩ |
    ⟨-, -, -, hholds⟩
  · rw [hsaved] at herror
    cases herror
  · rw [AttemptStore.contractOf, hnew] at hfirst
    cases hfirst
  · rw [← withContract_new hnew]
    exact hholds

theorem index04_injective : Function.Injective index04 := padded_injective

theorem iterationPath_injective : Function.Injective iterationPath := fun _ _ h =>
  index04_injective (List.append_cancel_left h)

/-- The files of the other iterations after a directory was added. -/
theorem sameFiles_append {directory : IterationDirectory} {i : ℕ} (hfound : (disk.iteration (iterationPath i)).isSome)
    (hiterations : disk'.iterations = disk.iterations ++ [directory])
    (hobservations : disk'.observations = disk.observations)
    (hmanifests : disk'.artifactManifests = disk.artifactManifests) : SameFiles i disk disk' where
  iteration := by
    obtain ⟨found, hfound⟩ := Option.isSome_iff_exists.mp hfound
    unfold SessionDisk.iteration at hfound ⊢
    rw [hiterations, List.find?_append, hfound]
    rfl
  observation := by
    unfold SessionDisk.observation
    rw [hobservations]
  artifactManifest := by
    unfold SessionDisk.artifactManifest
    rw [hmanifests]

/-- **A prepared iteration leaves an intact session.** -/
theorem Intact.prepare (h : Intact host sessionDir disk m chain attempts) {p : Preparation} {r : IterationRecord}
    {e : NextEnvironment} {c : AttemptContract} (hdone : Prepared host sessionDir p disk r disk' m e c) :
    ∃ chain' attempts', Intact host sessionDir disk' (preparedManifest m r p.now) chain' attempts' := by
  obtain ⟨chain', hextended⟩ := h.nextEnvironment hdone.environment
  obtain ⟨hcontrol, hextends⟩ := h.stands.control.prepare hdone
  have hplaced : Placed m.iterations.length r := hcontrol.placed _ r (getElem?_concat_iff.mpr (Or.inr ⟨rfl, rfl⟩))
  have hkept := hextended.manifests.kept _ _ hextended.last
  have hversion : e.manifest.manifestVersion.IsInt :=
    (PyInt.storable_iff.mp (hkept.storable.1 _ (by simp [EnvironmentManifest.integers]))).1
  have hattempts := h.saveContract hversion hdone.contract hdone.saved
  have hfields := contractFor hdone.contract
  obtain ⟨hmanifestId, -⟩ := nextContract_ok hdone.contract
  have hlength : attempts.length = m.iterations.length := by
    have := congrArg List.length h.names
    rwa [List.length_map, List.length_map] at this
  have hsnapshots : disk'.snapshots = e.snapshots := by
    rw [hdone.disk]
    exact if_pos h.storeDir
  have hrecord := hdone.record
  have hid : r.attemptId = c.attemptId := by rw [hrecord]; rfl
  have hstate : r.state = .prepared := by rw [hrecord]; rfl
  have hiterations : disk'.iterations =
      disk.iterations ++ [⟨iterationPath m.iterations.length, r.toDict, none, none⟩] := by rw [hdone.disk]
  have hplain : r.PlainProgress := by
    intro f hf
    obtain ⟨-, -, -, hnone, -⟩ := hplaced.prepared hstate
    rw [hnone] at hf
    cases hf
  refine ⟨chain', attempts ++ [⟨c.attemptId, some c, none⟩], ?_⟩
  constructor
  · exact ⟨by rw [hdone.disk], hcontrol, h.stands.sessionDir, h.stands.manifests⟩
  · rw [hsnapshots, hextended.storeDir]
    exact h.storeDir
  · rw [hsnapshots]
    exact hextended.sound
  · rw [hdone.disk]
    exact hextended.manifests
  · show chain'.length = max 1 (m.iterations ++ [r]).length
    rw [hextended.length, List.length_append, List.length_singleton]
    omega
  · obtain ⟨seed, s, hseed, hseedId, hrootfs, hsample, hsnapshot⟩ := h.seed
    refine ⟨seed, s, hextended.prior 0 seed hseed, hseedId, hrootfs, hsample, ?_⟩
    rw [hsnapshots]
    exact hextended.keeps _ s hsnapshot
  · rw [hdone.disk]
    exact hattempts
  · show (attempts ++ [_]).map AttemptEntry.name = (m.iterations ++ [r]).map IterationRecord.attemptId
    rw [List.map_append, List.map_append, h.names, List.map_singleton, List.map_singleton, hid]
  · intro i record hget
    rcases getElem?_concat_iff.mp hget with hget | ⟨rfl, rfl⟩
    · have haccounted := h.accounted i record hget
      obtain ⟨directory, hdirectory, -⟩ := haccounted.record
      refine haccounted.frame hextends ?_ ?_ (hextended.prior i) fun e' he' =>
        getElem?_concat_iff.mpr (Or.inl he')
      · exact sameFiles_append (by rw [hdirectory]; rfl) hiterations (by rw [hdone.disk]) (by rw [hdone.disk])
      · rw [KeepsSnapshots, hsnapshots]
        exact hextended.keeps
    · refine ⟨?_, ?_, ?_, ⟨hplain, ?_⟩, ?_, fun hcompleted => by rw [hstate] at hcompleted; cases hcompleted⟩
      · rw [hsnapshots, hrecord]
        exact hextended.captured
      · refine ⟨e.manifest, hextended.last, ?_, ?_, hextended.sample⟩
        · rw [hrecord]
          exact hmanifestId
        · rw [hrecord]
          exact hdone.rootfs
      · refine ⟨⟨iterationPath m.iterations.length, record.toDict, none, none⟩, ?_, rfl⟩
        have hfresh := hdone.fresh
        unfold SessionDisk.iteration at hfresh ⊢
        rw [hiterations, List.find?_append, hfresh]
        simp
      · exact ((writeDocument_eq_ok (IterationRecord.plain hplain)).mp hdone.written).1
      · refine ⟨⟨c.attemptId, some c, none⟩, c, getElem?_concat_iff.mpr (Or.inr ⟨hlength.symm, rfl⟩), rfl, ?_,
          fun _ => rfl⟩
        simp only [validateContractBinding, bind_eq_ok, require_eq_ok]
        refine ⟨(), hid.symm, (), ?_, (), hfields.session.1, (), hfields.session.2.1, (), hfields.session.2.2, (), ?_, ?_⟩
        · rw [hfields.index, hplaced.index]
          rfl
        · rw [hrecord]
          rfl
        · rw [hfields.environment, hrecord]
          rfl
  · intro i record hget hlast hcompleted
    rcases getElem?_concat_iff.mp hget with hget | ⟨-, rfl⟩
    · have hlt := (List.getElem?_eq_some_iff.mp hget).1
      change i + 1 = (m.iterations ++ [r]).length at hlast
      rw [List.length_append, List.length_singleton] at hlast
      omega
    · rw [hstate] at hcompleted
      cases hcompleted

/-! ### A completed iteration -/

theorem decision_plain (decision : ProgressOracle.ProgressDecision) : Plain (.obj decision.toDict) := by
  have hnodup : [py "classification", py "reasons", py "new_guest_events", py "removed_guest_events",
      py "new_network_targets", py "likely_unmet_delta", py "unmet_delta"].Nodup := by decide
  refine plain_obj (by exact hnodup) ?_
  simp [ProgressOracle.ProgressDecision.toDict, plain_arr]

theorem mapM_congr {ε α β : Type} {f g : α → Except ε β} {l : List α} (h : ∀ a ∈ l, f a = g a) :
    l.mapM f = l.mapM g := by
  induction l with
  | nil => rfl
  | cons a l ih =>
    rw [List.mapM_cons, List.mapM_cons, h a List.mem_cons_self, ih fun b hb => h b (List.mem_cons_of_mem a hb)]

/-- **The reason to stop** depends on what earlier observations are read, and not on when the new one was made. -/
theorem decideStopReason_congr {ft : FloatText} {builtins : PyBuiltins} {store store' : PyStr → Option PyStr}
    {records records' : List (Option PyStr)} {limit index : ℕ} {o : ProgressOracle.IterationObservation}
    (hrecords : records'.take index = records.take index)
    (hstore : ∀ path, some path ∈ records.take index → store' path = store path) :
    ProgressOracle.decideStopReason ft builtins store' records' limit index o.timed =
      ProgressOracle.decideStopReason ft builtins store records limit index o := by
  have hprior : ProgressOracle.priorObservations ft builtins store' (records'.take index) =
      ProgressOracle.priorObservations ft builtins store (records.take index) := by
    unfold ProgressOracle.priorObservations
    rw [hrecords]
    apply mapM_congr
    intro path hpath
    obtain ⟨record, hrecord, hsome⟩ := List.mem_filterMap.mp hpath
    obtain rfl : record = some path := hsome
    rw [hstore path hrecord]
  unfold ProgressOracle.decideStopReason
  rw [hprior]
  rfl

/-- **The result of the attempt** says what was observed. -/
structure ResultFor (host : Host) (c : AttemptContract) (o : ProgressOracle.IterationObservation) (text : PyStr)
    (result : AttemptResult) : Prop where
  construct : result.construct host.iso = .ok ()
  integers : ∀ n ∈ result.integers, n.IsInt
  transitions : result.transitions = []
  attemptId : result.attemptId = c.attemptId
  progress : result.progress =
    { goalReached := o.goalReached
      oracleReason := o.goalReason
      guestEventsTotal := .int o.metrics.guestEventsTotal
      coverageEdges := none
      observationSha256 := some (host.sha.hexdigest text) }

theorem resultFor {c : AttemptContract} {o : ProgressOracle.IterationObservation} {text : PyStr}
    {plan : Option RepairPlan} {p : Completion} {result : AttemptResult}
    (h : buildAttemptResult host c o text plan p = .ok result) : ResultFor host c o text result := by
  simp only [buildAttemptResult, bind_eq_ok, passOn_eq_ok, pure_eq_ok] at h
  obtain ⟨code, -, fingerprint, -, digest, -, _, hconstruct, rfl⟩ := h
  refine ⟨hconstruct, ?_, rfl, rfl, rfl⟩
  simp only [AttemptResult.integers, List.forall_mem_cons, List.not_mem_nil, IsEmpty.forall_iff, implies_true,
    and_true]
  exact ⟨⟨1, rfl⟩, 1, rfl⟩

theorem ResultFor.readable {c : AttemptContract} {o : ProgressOracle.IterationObservation} {text : PyStr}
    {result : AttemptResult} (h : ResultFor host c o text result) (hreason : o.goalReason ≠ some []) :
    result.Readable := by
  refine ⟨h.integers, ?_, ?_⟩
  · rw [h.progress]
    exact ⟨hreason, ⟨_, rfl⟩, by simp⟩
  · rw [h.transitions]
    simp

/-- The reason that is observed is empty only when an empty one was given and the goal was not reached. -/
theorem goalReason_ne_nil {files : ArtifactFiles} {snapshotId now : PyStr} {goalReached : Bool}
    {goalReason : Option PyStr} {o : ProgressOracle.IterationObservation}
    (hgiven : goalReason = some [] → goalReached = true)
    (h : ProgressOracle.observe host.sha host.ft host.builtins files snapshotId goalReached goalReason now = .ok o) :
    o.goalReason ≠ some [] := by
  obtain ⟨read, -, -, rfl⟩ := ProgressOracle.observe_eq_ok.mp h
  show (if goalReached ∧ (goalReason = none ∨ goalReason = some []) then
    some (py "explicit goal marker supplied") else goalReason) ≠ some []
  split
  · decide
  · rename_i hnot
    intro hnil
    exact hnot ⟨hgiven hnil, Or.inr hnil⟩

theorem getElem?_withResult {entries : List AttemptEntry} {result : AttemptResult} {i : ℕ} {e : AttemptEntry}
    (h : entries[i]? = some e) : (AttemptStore.withResult entries result)[i]? =
      some (if e.name = result.attemptId then e.setResult result else e) := by
  rw [AttemptStore.withResult, updateKey, List.getElem?_map, h]
  rfl

/-- **The attempts after the result was saved.** -/
theorem Intact.saveResult (h : Intact host sessionDir disk m chain attempts) {index : ℕ} {old : IterationRecord}
    {e : AttemptEntry} {c : AttemptContract} {o : ProgressOracle.IterationObservation} {text : PyStr}
    {result : AttemptResult} (hold : m.iterations[index]? = some old) (he : attempts[index]? = some e)
    (hnone : e.result = none) (hid : c.attemptId = old.attemptId) (hresult : ResultFor host c o text result)
    (hreason : o.goalReason ≠ some [])
    (hsaved : (disk.attempts.saveResult host.sha host.ft host.iso result).1 = .ok ()) :
    AttemptStore.Holds host.sha host.ft host.iso (disk.attempts.saveResult host.sha host.ft host.iso result).2
      (AttemptStore.withResult attempts result) := by
  have hname : e.name = result.attemptId := by
    rw [hresult.attemptId, hid]
    exact h.name hold he
  have hfound : AttemptStore.entry attempts result.attemptId = some e :=
    hname ▸ entry_of_getElem h.attempts.nodup he
  rcases h.attempts.saveResult hresult.construct (hresult.readable hreason) with ⟨error, herror⟩ |
    ⟨-, first, hfirst, -⟩ | ⟨-, -, -, -, hholds⟩
  · rw [herror] at hsaved
    cases hsaved
  · rw [AttemptStore.resultOf, hfound, Option.bind_some, hnone] at hfirst
    cases hfirst
  · exact hholds

/-- The files of the other iterations after one was completed. -/
theorem sameFiles_update {index i : ℕ} (hne : i ≠ index) {change : IterationDirectory → IterationDirectory}
    (hchange : ∀ directory, (change directory).path = directory.path) {text : PyStr} {listing : Json}
    (hiterations : disk'.iterations = disk.updateIteration (iterationPath index) change)
    (hobservations : disk'.observations =
      (iterationPath index ++ py "/observation.json", text) :: disk.observations)
    (hmanifests : disk'.artifactManifests =
      (iterationPath index ++ py "/artifacts/artifact_manifest.json", listing) :: disk.artifactManifests) :
    SameFiles i disk disk' where
  iteration := by
    show entryOf IterationDirectory.path (iterationPath i) disk'.iterations = _
    have hpath : iterationPath i ≠ iterationPath index := fun heq => hne (iterationPath_injective heq)
    rw [hiterations, SessionDisk.updateIteration]
    rw [show (disk.iterations.map fun d => if d.path = iterationPath index then change d else d) =
      updateKey IterationDirectory.path (iterationPath index) change disk.iterations from rfl,
      entryOf_updateKey hchange, if_neg hpath]
    rfl
  observation := by
    unfold SessionDisk.observation
    rw [hobservations, List.find?_cons_of_neg]
    simp only [beq_iff_eq]
    intro heq
    exact hne (iterationPath_injective (List.append_cancel_right heq)).symm
  artifactManifest := by
    unfold SessionDisk.artifactManifest
    rw [hmanifests, List.find?_cons_of_neg]
    simp only [beq_iff_eq]
    intro heq
    exact hne (iterationPath_injective (List.append_cancel_right heq)).symm

/-- **The listing of a bundle is accepted for it.** -/
theorem verifyArtifactManifest_built {bundle : ArtifactBundle} {now : PyStr} {listing : Json}
    (h : buildArtifactManifest host bundle now = .ok listing) :
    verifyArtifactManifest host (some listing) bundle = .ok () := by
  simp only [buildArtifactManifest, bind_eq_ok, pure_eq_ok] at h
  obtain ⟨digest, hdigest, rfl⟩ := h
  simp only [verifyArtifactManifest, bind_eq_ok, passOn_eq_ok, found_eq_ok, require_eq_ok, Option.some.injEq,
    exists_eq_left']
  refine ⟨digest, hdigest, ?_⟩
  exact isText_iff.mpr rfl

/-- The directory of an iteration that was completed. -/
def completedDirectory (r : IterationRecord) (bundle : ArtifactBundle) (directory : IterationDirectory) :
    IterationDirectory := { directory with record := r.toDict, artifacts := some bundle }

@[simp] theorem completedDirectory_path (r : IterationRecord) (bundle : ArtifactBundle)
    (directory : IterationDirectory) : (completedDirectory r bundle directory).path = directory.path := rfl

/-- **What is stored of the iteration that was completed.** -/
theorem Intact.accounted_completed (h : Intact host sessionDir disk m chain attempts) {p : Completion}
    {r : IterationRecord} {index : ℕ} {old : IterationRecord} {directory : IterationDirectory} {v : Evidence}
    (hdone : Completed host sessionDir p disk r disk' m index old directory v) :
    Accounted host disk' (completedManifest m index r v.transition.1 v.transition.2 p.updatedAt) chain
      (AttemptStore.withResult attempts v.result) index r ∧
    ∃ e, (AttemptStore.withResult attempts v.result)[index]? = some e ∧ e.result = some v.result ∧
      loadObservation host disk' (iterationPath index ++ py "/observation.json") = .ok v.observation.timed := by
  obtain ⟨-, hlength, hold⟩ := hdone.latest
  have hplaced := h.stands.control.placed index old hold
  have haccounted := h.accounted index old hold
  obtain ⟨e, c, he, hc, hbinding, hnone⟩ := haccounted.attempt
  have hname := h.name hold he
  have hresult := resultFor hdone.result
  have hcontract : v.contract = c := by
    have hload := h.attempts.loadContract.mp hdone.contract
    rw [← hname, entry_of_getElem h.attempts.nodup he, Option.bind_some, hc] at hload
    exact (Option.some.inj hload).symm
  have hcid : c.attemptId = old.attemptId := by
    simp only [validateContractBinding, bind_eq_ok, require_eq_ok] at hbinding
    exact hbinding.choose_spec.1
  have hrecord := hdone.record
  have hid : e.name = v.result.attemptId := by
    rw [hresult.attemptId, hcontract, hcid, hname]
  have hget : (AttemptStore.withResult attempts v.result)[index]? = some (e.setResult v.result) := by
    rw [getElem?_withResult he, if_pos hid]
  have hplain : r.PlainProgress := by
    intro f hf
    rw [hrecord] at hf
    obtain rfl := Option.some.inj hf
    exact decision_plain _
  have hsnapshots : disk'.snapshots = disk.snapshots := by rw [hdone.disk]
  have hdirectory : disk'.iteration (iterationPath index) =
      some (completedDirectory r v.bundle directory) := by
    have hlocated := hdone.located
    rw [hplaced.directory] at hlocated
    show entryOf IterationDirectory.path (iterationPath index) disk'.iterations = _
    rw [hdone.disk]
    show entryOf _ _ (updateKey IterationDirectory.path old.directory (completedDirectory r v.bundle)
      disk.iterations) = _
    rw [hplaced.directory, entryOf_updateKey (completedDirectory_path r v.bundle), if_pos rfl]
    show (disk.iteration (iterationPath index)).map _ = _
    rw [hlocated]
    rfl
  have htext : disk'.observation (iterationPath index ++ py "/observation.json") = some v.text := by
    rw [hdone.disk, hplaced.directory]
    unfold SessionDisk.observation
    simp
  have hlisting : disk'.artifactManifest (iterationPath index ++ py "/artifacts/artifact_manifest.json") =
      some v.artifactManifest := by
    rw [hdone.disk, hplaced.directory]
    unfold SessionDisk.artifactManifest
    simp
  -- The observation that was written is read back, with a time that is not empty.
  have hloaded : loadObservation host disk' (iterationPath index ++ py "/observation.json") =
      .ok v.observation.timed := by
    obtain ⟨read, hread, -⟩ := ProgressOracle.observe_eq_ok.mp hdone.observation
    have hstored := ProgressOracle.ObservedIteration.stored
      ⟨v.bundle.artifactFiles, old.environmentSnapshotId, p.goalReached, p.goalReason, p.observedAt, read,
        v.observation, hread, hdone.observation⟩
    rw [loadObservation, htext]
    exact ProgressOracle.load_save hstored.1 hstored.2 hdone.text
  refine ⟨⟨?_, ?_, ⟨_, hdirectory, rfl⟩, ⟨hplain, ?_⟩, ?_, ?_⟩, _, hget, rfl, hloaded⟩
  · rw [hsnapshots, hrecord]
    exact haccounted.snapshot
  · rw [hrecord]
    exact haccounted.manifest
  · exact ((writeDocument_eq_ok (IterationRecord.plain hplain)).mp hdone.written).1
  · refine ⟨_, c, hget, hc, ?_, fun hstate => ?_⟩
    · rw [hrecord]
      exact hbinding
    · rw [hrecord] at hstate
      cases hstate
  · intro _
    refine ⟨_, v.result, _, v.bundle, v.observation.timed, hget, rfl, hdirectory, rfl, hloaded, ?_, ⟨v.text, htext, ?_⟩,
      ?_⟩
    · rw [hlisting]
      exact verifyArtifactManifest_built hdone.artifactManifest
    · rw [hresult.progress]
    · rw [hresult.progress]
      exact ⟨rfl, rfl, rfl⟩

/-- **A completed iteration leaves an intact session.** -/
theorem Intact.complete (h : Intact host sessionDir disk m chain attempts) {p : Completion} {r : IterationRecord}
    {index : ℕ} {old : IterationRecord} {directory : IterationDirectory} {v : Evidence}
    (hgiven : p.goalReason = some [] → p.goalReached = true)
    (hdone : Completed host sessionDir p disk r disk' m index old directory v) :
    ∃ attempts', Intact host sessionDir disk'
      (completedManifest m index r v.transition.1 v.transition.2 p.updatedAt) chain attempts' := by
  obtain ⟨-, hlength, hold⟩ := hdone.latest
  obtain ⟨hcontrol, hextends⟩ := h.stands.control.complete hdone
  obtain ⟨hcompleted, e', he', hresult', hloaded⟩ := h.accounted_completed hdone
  have hplaced := h.stands.control.placed index old hold
  obtain ⟨e, c, he, hc, hbinding, hnone⟩ := (h.accounted index old hold).attempt
  have hcontract : v.contract = c := by
    have hload := h.attempts.loadContract.mp hdone.contract
    rw [← h.name hold he, entry_of_getElem h.attempts.nodup he, Option.bind_some, hc] at hload
    exact (Option.some.inj hload).symm
  have hcid : c.attemptId = old.attemptId := by
    simp only [validateContractBinding, bind_eq_ok, require_eq_ok] at hbinding
    exact hbinding.choose_spec.1
  have hresult : ResultFor host c v.observation v.text v.result := hcontract ▸ resultFor hdone.result
  have hholds := h.saveResult hold he (hnone hdone.prepared) hcid hresult
    (goalReason_ne_nil hgiven hdone.observation) hdone.saved
  have hsnapshots : disk'.snapshots = disk.snapshots := by rw [hdone.disk]
  have hself : (m.iterations.set index r)[index]? = some r := List.getElem?_set_self (by omega)
  have hother : ∀ i, i ≠ index → SameFiles i disk disk' := by
    intro i hi
    have hiterations : disk'.iterations =
        disk.updateIteration (iterationPath index) (completedDirectory r v.bundle) := by
      rw [hdone.disk, hplaced.directory]
      rfl
    have hobservations : disk'.observations =
        (iterationPath index ++ py "/observation.json", v.text) :: disk.observations := by
      rw [hdone.disk, hplaced.directory]
    have hmanifests : disk'.artifactManifests =
        (iterationPath index ++ py "/artifacts/artifact_manifest.json", v.artifactManifest) ::
          disk.artifactManifests := by
      rw [hdone.disk, hplaced.directory]
    exact sameFiles_update hi (completedDirectory_path r v.bundle) hiterations hobservations hmanifests
  refine ⟨AttemptStore.withResult attempts v.result, ?_⟩
  constructor
  · exact ⟨by rw [hdone.disk], hcontrol, h.stands.sessionDir, h.stands.manifests⟩
  · rw [hsnapshots]
    exact h.storeDir
  · rw [hsnapshots]
    exact h.snapshots
  · rw [hdone.disk]
    exact h.manifests
  · show chain.length = max 1 (m.iterations.set index r).length
    rw [List.length_set]
    exact h.versions
  · rw [hsnapshots]
    exact h.seed
  · rw [hdone.disk]
    exact hholds
  · show (AttemptStore.withResult attempts v.result).map AttemptEntry.name = (m.iterations.set index r).map _
    have hid : r.attemptId = old.attemptId := by
      rw [hdone.record]
      rfl
    have hbound : index < (m.iterations.map IterationRecord.attemptId).length := by
      rw [List.length_map]
      omega
    have hget : r.attemptId = (m.iterations.map IterationRecord.attemptId)[index] := by
      rw [List.getElem_map, (List.getElem_eq_iff (by omega)).mpr hold, hid]
    rw [AttemptStore.withResult, map_key_updateKey (AttemptEntry.setResult_name v.result), h.names, List.map_set, hget,
      List.set_getElem_self]
  · intro i record hrecord
    change (m.iterations.set index r)[i]? = some record at hrecord
    by_cases hi : i = index
    · subst hi
      obtain rfl := Option.some.inj (hself.symm.trans hrecord)
      exact hcompleted
    · rw [List.getElem?_set_ne (Ne.symm hi)] at hrecord
      refine (h.accounted i record hrecord).frame hextends (hother i hi) ?_ (fun _ => id) fun entry hentry => ?_
      · rw [KeepsSnapshots, hsnapshots]
        exact fun _ _ => id
      · rw [getElem?_withResult hentry, if_neg]
        intro hname
        have hindex := (h.stands.control.placed i record hrecord).attemptIndex
        rw [← h.name hrecord hentry, hname, hresult.attemptId, hcid, hplaced.attemptIndex] at hindex
        exact hi hindex.symm
  · intro i record hrecord hlast _
    change (m.iterations.set index r)[i]? = some record at hrecord
    change i + 1 = (m.iterations.set index r).length at hlast
    rw [List.length_set] at hlast
    obtain rfl : i = index := by omega
    obtain rfl := Option.some.inj (hself.symm.trans hrecord)
    refine ⟨e', v.result, v.observation.timed, v.oracleReason, he', hresult', hloaded, ?_, rfl, rfl, ?_⟩
    · refine Eq.trans ?_ hdone.oracle
      apply decideStopReason_congr
      · show ((m.iterations.set i r).map IterationRecord.observation).take i = _
        rw [← List.map_take, ← List.map_take, List.take_set_of_le le_rfl]
      · -- The observations of earlier iterations are in other files.
        intro path hpath
        rw [← List.map_take] at hpath
        obtain ⟨prior, hprior, hobservation⟩ := List.mem_map.mp hpath
        obtain ⟨j, hj⟩ := List.mem_iff_getElem?.mp hprior
        rw [List.getElem?_take] at hj
        obtain ⟨hlt, hj⟩ := Option.ite_none_right_eq_some.mp hj
        have hpriorPlaced := h.stands.control.placed j prior hj
        cases hstate : prior.state with
        | prepared =>
          rw [(hpriorPlaced.prepared hstate).1] at hobservation
          cases hobservation
        | completed =>
          rw [(hpriorPlaced.completed hstate).1] at hobservation
          obtain rfl := Option.some.inj hobservation
          exact (hother j (by omega)).observation
    · show r.stopReason = v.transition.2.map ProgressOracle.StopReason.value
      rw [hdone.record]
      rfl

/-! ### Runs -/

/-- The claim of an iteration changes. -/
def withClaim (claim : Option Json) (directory : IterationDirectory) : IterationDirectory := { directory with claim }

@[simp] theorem withClaim_path (claim : Option Json) (directory : IterationDirectory) :
    (withClaim claim directory).path = directory.path := rfl

/-- A call that succeeds, a change of a claim, or a further snapshot. -/
inductive Call (host : Host) (sessionDir : PyStr) : SessionDisk → SessionDisk → Prop
  | prepare {p : Preparation} {d d' : SessionDisk} {r : IterationRecord}
      (h : prepareNext host sessionDir p d = .ok (r, d')) : Call host sessionDir d d'
  | complete {p : Completion} {d d' : SessionDisk} {r : IterationRecord}
      (reason : p.goalReason = some [] → p.goalReached = true)
      (h : completeIteration host sessionDir p d = .ok (r, d')) : Call host sessionDir d d'
  | claim (path : PyStr) (claim : Option Json) (d : SessionDisk) :
      Call host sessionDir d { d with iterations := d.updateIteration path (withClaim claim) }
  | capture (c : EnvironmentSnapshotStore.Capture) (d : SessionDisk) :
      Call host sessionDir d { d with snapshots := d.snapshots.afterCapture host.sha host.ft c }

/-- **A session stays intact** when the files of its iterations stay, but for the claims, and the snapshots that it
has are kept. -/
theorem Intact.keep (h : Intact host sessionDir disk m chain attempts)
    (hsession : disk' = { disk with iterations := disk'.iterations, snapshots := disk'.snapshots })
    (hiterations : ∀ path, (disk'.iteration path).map (withClaim none) = (disk.iteration path).map (withClaim none))
    (hsound : disk'.snapshots.Sound host.sha host.ft) (hstoreDir : disk'.snapshots.storeDir = disk.snapshots.storeDir)
    (hsnapshots : KeepsSnapshots host disk disk') : Intact host sessionDir disk' m chain attempts := by
  have hfound : ∀ path directory, disk.iteration path = some directory → ∃ directory',
      disk'.iteration path = some directory' ∧ directory'.record = directory.record ∧
        directory'.artifacts = directory.artifacts := by
    intro path directory hdirectory
    have hsame := hiterations path
    rw [hdirectory, Option.map_some] at hsame
    obtain ⟨directory', hdirectory', hclaim⟩ := Option.map_eq_some_iff.mp hsame
    have hrecord := congrArg IterationDirectory.record hclaim
    have hartifacts := congrArg IterationDirectory.artifacts hclaim
    exact ⟨directory', hdirectory', hrecord, hartifacts⟩
  have hobservation : ∀ path, disk'.observation path = disk.observation path := by
    intro path
    rw [hsession]
    rfl
  have hlisting : ∀ path, disk'.artifactManifest path = disk.artifactManifest path := by
    intro path
    rw [hsession]
    rfl
  constructor
  · exact ⟨by rw [hsession]; exact h.stands.session, h.stands.control, h.stands.sessionDir, h.stands.manifests⟩
  · rw [hstoreDir]
    exact h.storeDir
  · exact hsound
  · rw [hsession]
    exact h.manifests
  · exact h.versions
  · obtain ⟨seed, s, hseed, hid, hrootfs, hsample, hsnapshot⟩ := h.seed
    exact ⟨seed, s, hseed, hid, hrootfs, hsample, hsnapshots _ s hsnapshot⟩
  · rw [hsession]
    exact h.attempts
  · exact h.names
  · intro i r hr
    have haccounted := h.accounted i r hr
    obtain ⟨s, hs⟩ := haccounted.snapshot
    obtain ⟨directory, hdirectory, hrecord⟩ := haccounted.record
    obtain ⟨directory', hdirectory', hrecord', -⟩ := hfound _ _ hdirectory
    refine ⟨⟨s, hsnapshots _ s hs⟩, haccounted.manifest, ⟨directory', hdirectory', hrecord'.trans hrecord⟩,
      haccounted.written, haccounted.attempt, fun hstate => ?_⟩
    obtain ⟨e, result, found, bundle, o, he, hresult, hplace, hbundle, hevident⟩ := haccounted.evidence hstate
    obtain ⟨found', hfound', -, hartifacts⟩ := hfound _ _ hplace
    refine ⟨e, result, found', bundle, o, he, hresult, hfound', hartifacts.trans hbundle, ?_, ?_, ?_, hevident.progress⟩
    · rw [loadObservation_congr (hobservation _)]
      exact hevident.loaded
    · rw [hlisting]
      exact hevident.listing
    · rw [hobservation]
      exact hevident.digest
  · intro i r hr hlast hstate
    obtain ⟨e, result, o, reason, he, hresult, hload, hdecide, hrest⟩ := h.stopped i r hr hlast hstate
    refine ⟨e, result, o, reason, he, hresult, ?_, ?_, hrest⟩
    · rw [loadObservation_congr (hobservation _)]
      exact hload
    · have hstore : disk'.observation = disk.observation := funext hobservation
      unfold decideStopReason at hdecide ⊢
      rw [hstore]
      exact hdecide

theorem afterCapture_storeDir {sha : Sha256} {ft : FloatText} (store : EnvironmentSnapshotStore)
    (c : EnvironmentSnapshotStore.Capture) : (store.afterCapture sha ft c).storeDir = store.storeDir := by
  unfold EnvironmentSnapshotStore.afterCapture
  cases hcapture : store.captureOne sha ft c with
  | error _ => rfl
  | ok result =>
    obtain ⟨s, store'⟩ := result
    exact capture_storeDir hcapture

/-- **One call.** -/
theorem Intact.call (h : Intact host sessionDir disk m chain attempts) (hdir : IsSessionDir host sessionDir)
    (hcall : Call host sessionDir disk disk') :
    ∃ n chain' attempts', Intact host sessionDir disk' n chain' attempts' ∧ Extends m n := by
  have hload := h.stands.load hdir
  cases hcall with
  | prepare hprepare =>
    obtain ⟨n, e, c, hdone⟩ := prepareNext_ok hprepare
    obtain rfl := Except.ok.inj (hload.symm.trans hdone.loaded)
    obtain ⟨chain', attempts', hintact⟩ := h.prepare hdone
    exact ⟨_, chain', attempts', hintact, (h.stands.control.prepare hdone).2⟩
  | complete hreason hcomplete =>
    obtain ⟨n, index, old, directory, v, hdone⟩ := completeIteration_ok hcomplete
    obtain rfl := Except.ok.inj (hload.symm.trans hdone.loaded)
    obtain ⟨attempts', hintact⟩ := h.complete hreason hdone
    exact ⟨_, chain, attempts', hintact, (h.stands.control.complete hdone).2⟩
  | claim path claim =>
    refine ⟨m, chain, attempts, h.keep rfl ?_ h.snapshots rfl (fun _ _ => id), Extends.refl m⟩
    intro path'
    show (entryOf IterationDirectory.path path'
      (updateKey IterationDirectory.path path (withClaim claim) disk.iterations)).map _ = _
    rw [entryOf_updateKey (withClaim_path claim)]
    split
    · rename_i hpath
      rw [hpath, Option.map_map]
      rfl
    · rfl
  | capture c =>
    obtain ⟨hsound, hkeeps⟩ := h.snapshots.step c
    exact ⟨m, chain, attempts, h.keep rfl (fun _ => rfl) hsound (afterCapture_storeDir _ c) hkeeps, Extends.refl m⟩

end IterationController

end TaintForge
