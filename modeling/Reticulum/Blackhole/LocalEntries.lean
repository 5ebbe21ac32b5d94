import Reticulum.Blackhole.Def

/-!
# The operator's entries

What the operator has blackholed is to stay so, and nobody else is to speak in the operator's name:
**`BlackholeTable.has_of_add`** and **`BlackholeTable.genuine_of_attributed`**.  The exceptions are
`BlackholeTable.add_refused` and `BlackholeTable.source_forged`.
-/

namespace Reticulum

open AList List Option BlackholeEntry

namespace BlackholeTable

variable {s : BlackholeTable} {k : Bytes} {e : BlackholeEntry} {ev : BlackholeEvent}
  {failed : Option String}

/-! ## Merging and loading -/

/-- The entry of `k` is as it was, or one that is not local gave way to one that `P` allows. -/
def Changed (localHash : Bytes) (P : Option Bytes → BlackholeEntry → Prop) (k : Bytes)
    (entries entries' : BlackholeMap) : Prop :=
  entries'.lookup k = entries.lookup k ∨
    ∃ source e, P source e ∧
      (∀ cur, entries.lookup k = some cur → cur.hasSource localHash = false) ∧
      entries'.lookup k = some (e.credit source)

section

variable {localHash : Bytes} {P Q : Option Bytes → BlackholeEntry → Prop} {a b c : BlackholeMap}

lemma Changed.mono (h : Changed localHash P k a b) (hPQ : ∀ source e, P source e → Q source e) :
    Changed localHash Q k a b := by
  obtain hsame | ⟨source, e, he, hput⟩ := h
  · exact .inl hsame
  · exact .inr ⟨source, e, hPQ source e he, hput⟩

lemma Changed.trans (h : Changed localHash P k a b) (h' : Changed localHash P k b c) :
    Changed localHash P k a c := by
  obtain hsame | ⟨source, e, he, hfree, hput⟩ := h'
  · rw [Changed, hsame]
    exact h
  · obtain hbefore | ⟨-, -, -, hfree', -⟩ := h
    · exact .inr ⟨source, e, he, hbefore ▸ hfree, hput⟩
    · exact .inr ⟨source, e, he, hfree', hput⟩

lemma Changed.of_local (h : Changed localHash P k a b) (he : a.lookup k = some e)
    (hlocal : e.hasSource localHash) : b.lookup k = some e := by
  obtain hsame | ⟨-, -, -, hfree, -⟩ := h
  · exact hsame.trans he
  · rw [hfree e he] at hlocal
    cases hlocal

end

section

variable (localHash : Bytes) (now : ℤ) (source : Option Bytes)

lemma changed_mergeEntry (entries : BlackholeMap) (d : Sigma fun _ : Bytes => BlackholeEntry)
    (k : Bytes) : Changed localHash (fun src e => src = source ∧ ⟨k, e⟩ = d) k entries
      (mergeEntry localHash now source entries d) := by
  rw [mergeEntry]
  split_ifs with hlen hlocal hexpired
  · exact .inl rfl
  · exact .inl rfl
  · exact .inl rfl
  · by_cases hk : k = d.1
    · subst hk
      refine .inr ⟨source, d.2, ⟨rfl, rfl⟩, fun cur hcur => ?_, lookup_insert _⟩
      simpa [hcur] using hlocal
    · exact .inl (lookup_insert_ne hk)

/-- **All that merging can do** to the entry of an identity: nothing, or it puts in the decoded one,
where there was no local one. -/
lemma changed_mergeEntries (entries decoded : BlackholeMap) (k : Bytes) :
    Changed localHash (fun src e => src = source ∧ decoded.lookup k = some e) k entries
      (mergeEntries localHash now source entries decoded) := by
  have hloop : ∀ ds : List (Sigma fun _ => BlackholeEntry), ∀ entries : BlackholeMap,
      Changed localHash (fun src e => src = source ∧ ⟨k, e⟩ ∈ ds) k entries
        (ds.foldl (mergeEntry localHash now source) entries) := by
    intro ds
    induction ds with
    | nil => exact fun _ => .inl rfl
    | cons d ds ih =>
      intro entries
      have hhead := changed_mergeEntry localHash now source entries d k
      refine (hhead.mono ?_).trans ((ih _).mono ?_)
      · exact fun _ _ he => ⟨he.1, mem_cons.mpr (.inl he.2)⟩
      · exact fun _ _ he => ⟨he.1, mem_cons_of_mem d he.2⟩
  exact (hloop decoded.entries entries).mono fun _ _ he => ⟨he.1, Table.lookup_eq_some_iff.mpr he.2⟩

end

lemma loadFile_eq (readable : SourceFile → Bool) (s : BlackholeTable)
    (f : Sigma fun _ : SourceFile => BlackholeMap) :
    ∃ entries, loadFile readable s f = { s with entries } ∧
      ∀ k, Changed s.localIdentityHash
        (fun source e => s.creditedTo f.1 = some source ∧ f.2.lookup k = some e) k s.entries
        entries := by
  rw [loadFile]
  match hf : s.creditedTo f.1 with
  | none => exact ⟨s.entries, rfl, fun _ => .inl rfl⟩
  | some source =>
    by_cases hread : readable f.1
    · refine ⟨_, if_pos hread, fun k => ?_⟩
      refine (changed_mergeEntries s.localIdentityHash s.clock source s.entries f.2 k).mono ?_
      rintro _ e ⟨rfl, he⟩
      exact ⟨rfl, he⟩
    · exact ⟨s.entries, if_neg hread, fun _ => .inl rfl⟩

/-- **All that loading can do** to the entry of an identity: nothing, or it puts in one of a file
that is not skipped, where there was no local one. -/
lemma foldl_loadFile_eq (readable : SourceFile → Bool)
    (fs : List (Sigma fun _ : SourceFile => BlackholeMap)) (s : BlackholeTable) :
    ∃ entries, fs.foldl (loadFile readable) s = { s with entries } ∧
      ∀ k, Changed s.localIdentityHash
        (fun source e => ∃ f ∈ fs, s.creditedTo f.1 = some source ∧ f.2.lookup k = some e) k
        s.entries entries := by
  induction fs generalizing s with
  | nil => exact ⟨s.entries, rfl, fun _ => .inl rfl⟩
  | cons f fs ih =>
    obtain ⟨first, hfirst, hlookup⟩ := loadFile_eq readable s f
    obtain ⟨entries, hrest, hentries⟩ := ih { s with entries := first }
    refine ⟨entries, by rw [foldl_cons, hfirst, hrest], fun k => ?_⟩
    refine ((hlookup k).mono ?_).trans ((hentries k).mono ?_)
    · exact fun _ _ he => ⟨f, mem_cons_self, he⟩
    · rintro _ _ ⟨g, hg, he⟩
      exact ⟨g, mem_cons_of_mem f hg, he⟩

section

variable (s : BlackholeTable)

lemma loadAll_eq (failed : Option String) (readable : SourceFile → Bool) :
    ∃ entries, (s.loadAll failed readable).1 = { s with entries } ∧
      ∀ k, Changed s.localIdentityHash
        (fun source e => ∃ files f content, s.files = some files ∧ files.lookup f = some content ∧
          s.creditedTo f = some source ∧ content.lookup k = some e) k s.entries entries := by
  unfold loadAll
  split
  · exact ⟨s.entries, rfl, fun _ => .inl rfl⟩
  · exact ⟨s.entries, rfl, fun _ => .inl rfl⟩
  next files hfiles =>
    obtain ⟨entries, hload, hentries⟩ := foldl_loadFile_eq readable (listing files) s
    refine ⟨entries, hload, fun k => (hentries k).mono ?_⟩
    rintro source e ⟨f, hf, he⟩
    exact ⟨files, f.1, f.2, hfiles,
      Table.lookup_eq_some_iff.mpr ((mem_insertionSort _).mp hf), he⟩

/-! ## What the calls leave alone -/

lemma persistLocal_cases (failed : Option String) :
    ((s.persistLocal failed).1 = s ∧ (s.files.isSome → (s.persistLocal failed).2 ≠ none)) ∨
      ∃ files, s.files = some files ∧ s.persistLocal failed =
        ({ s with files := some (files.insert .localFile s.localEntries) }, none) := by
  unfold persistLocal
  split
  next h => exact .inl ⟨rfl, by simp [h]⟩
  · exact .inl ⟨rfl, by simp⟩
  next files h => exact .inr ⟨files, h, rfl⟩

lemma persistLocal_same (failed : Option String) :
    (s.persistLocal failed).1.localIdentityHash = s.localIdentityHash ∧
      (s.persistLocal failed).1.clock = s.clock ∧
      (s.persistLocal failed).1.entries = s.entries := by
  obtain ⟨heq, -⟩ | ⟨files, -, heq⟩ := s.persistLocal_cases failed
  · simp [heq]
  · simp [heq]

lemma mergeRemote_eq (sourceHash : Bytes) (decoded : BlackholeMap) (failed : Option String) :
    ∃ entries files, (s.mergeRemote sourceHash decoded failed).1 = { s with entries, files } ∧
      (∀ k, Changed s.localIdentityHash
        (fun source e => source = some sourceHash ∧ decoded.lookup k = some e) k s.entries
        entries) ∧
      files.bind (·.lookup .localFile) = s.files.bind (·.lookup .localFile) := by
  rw [mergeRemote]
  split_ifs
  · exact ⟨s.entries, s.files, rfl, fun _ => .inl rfl, rfl⟩
  · refine ⟨mergeEntries s.localIdentityHash s.clock (some sourceHash) s.entries decoded, ?_⟩
    have hlookup :=
      changed_mergeEntries s.localIdentityHash s.clock (some sourceHash) s.entries decoded
    split
    next h => exact ⟨s.files, rfl, hlookup, rfl⟩
    · exact ⟨s.files, rfl, hlookup, rfl⟩
    next files h =>
      refine ⟨_, rfl, hlookup, ?_⟩
      rw [h]
      exact lookup_insert_ne (by simp)

lemma add_cases (identityHash : Bytes) (untilTime : Timestamp)
    (reason : Bytes) (failed : Option String) : let r := s.add identityHash untilTime reason failed
    let entry : BlackholeEntry := ⟨some s.localIdentityHash, untilTime, reason⟩
    (r.1 = s ∧ r.2.1 = false) ∨
      s.entries.lookup identityHash = none ∧ identityHash.length = hashLen ∧
        r.1 = (persistLocal
          { s with
            entries := s.entries.insert identityHash entry
            added := s.added.insert identityHash entry
            authored := s.authored ++ [(identityHash, entry)] } failed).1 := by
  unfold add
  split_ifs with hlen hlocal hsome
  · exact .inl ⟨rfl, rfl⟩
  · exact .inl ⟨rfl, rfl⟩
  · exact .inl ⟨rfl, rfl⟩
  · exact .inr ⟨by simpa using hsome, by simpa using hlen, rfl⟩

lemma remove_cases (s : BlackholeTable) (identityHash : Bytes) (failed : Option String) :
    let persisted := persistLocal
      { s with
        entries := s.entries.erase identityHash
        added := s.added.erase identityHash } failed
    (s.remove identityHash failed).1 = s ∨
      (persisted.2 = none ∧ (s.remove identityHash failed).1 =
        { persisted.1 with authored := persisted.1.authored.filter fun a => a.1 ≠ identityHash }) ∨
      persisted.2 ≠ none ∧ (s.remove identityHash failed).1 = persisted.1 := by
  intro persisted
  unfold remove
  split_ifs with hlen hnone
  · exact .inl rfl
  · exact .inl rfl
  · by_cases hwritten : persisted.2 = none
    · exact .inr (.inl ⟨hwritten, congrArg Prod.fst (if_pos hwritten)⟩)
    · exact .inr (.inr ⟨hwritten, congrArg Prod.fst (if_neg hwritten)⟩)

lemma localIdentityHash_step (ev : BlackholeEvent) :
    (s.step ev).localIdentityHash = s.localIdentityHash ∧ s.clock ≤ (s.step ev).clock := by
  cases ev with
  | add identityHash untilTime reason failed =>
    obtain ⟨heq, -⟩ | ⟨-, -, heq⟩ := s.add_cases identityHash untilTime reason failed
    · simp [step, heq]
    · simp [step, heq, persistLocal_same]
  | remove identityHash failed =>
    obtain heq | ⟨-, heq⟩ | ⟨-, heq⟩ := s.remove_cases identityHash failed
    · simp [step, heq]
    · simp [step, heq, persistLocal_same]
    · simp [step, heq, persistLocal_same]
  | merge sourceHash decoded failed =>
    obtain ⟨entries, files, heq, -⟩ := s.mergeRemote_eq sourceHash decoded failed
    simp [step, heq]
  | persist failed => simp [step, persistLocal_same]
  | load failed readable =>
    obtain ⟨entries, heq, -⟩ := s.loadAll_eq failed readable
    simp [step, heq]
  | sweep => exact ⟨rfl, le_refl _⟩
  | wait seconds => exact ⟨rfl, le_add_of_nonneg_right (Int.natCast_nonneg seconds)⟩

end

/-! ## An entry that was added -/

/-- **A local entry stays** as it is, unless it is removed or swept. -/
lemma lookup_step_of_local (he : s.entries.lookup k = some e)
    (hlocal : e.hasSource s.localIdentityHash) (hremove : ∀ failed, ev ≠ .remove k failed)
    (hsweep : ev ≠ .sweep) : (s.step ev).entries.lookup k = some e := by
  cases ev with
  | add identityHash untilTime reason failed =>
    rw [step]
    obtain ⟨heq, -⟩ | ⟨hnone, -, heq⟩ := s.add_cases identityHash untilTime reason failed
    · rw [heq, he]
    · have hk : k ≠ identityHash := by
        rintro rfl
        rw [he] at hnone
        cases hnone
      rw [heq, (persistLocal_same _ failed).2.2]
      exact (lookup_insert_ne hk).trans he
  | remove identityHash failed =>
    have hk : k ≠ identityHash := by
      rintro rfl
      exact hremove failed rfl
    rw [step]
    obtain heq | ⟨-, heq⟩ | ⟨-, heq⟩ := s.remove_cases identityHash failed
    · rw [heq, he]
    all_goals
      rw [heq, (persistLocal_same _ failed).2.2]
      exact (lookup_erase_ne hk).trans he
  | merge sourceHash decoded failed =>
    obtain ⟨entries, files, heq, hentries, -⟩ := s.mergeRemote_eq sourceHash decoded failed
    rw [step, heq]
    exact (hentries k).of_local he hlocal
  | persist failed =>
    rw [step, (persistLocal_same _ failed).2.2, he]
  | load failed readable =>
    obtain ⟨entries, heq, hentries⟩ := s.loadAll_eq failed readable
    rw [step, heq]
    exact (hentries k).of_local he hlocal
  | sweep => exact absurd rfl hsweep
  | wait seconds => exact he

def Holds (k : Bytes) (untilTime : Timestamp) (s : BlackholeTable) : Prop :=
  (∃ e, s.entries.lookup k = some e ∧ e.hasSource s.localIdentityHash = true ∧
    e.untilTime = untilTime) ∨ untilTime.isZero = false ∧ untilTime.isBefore s.clock = true

lemma Holds.step {untilTime : Timestamp} (h : Holds k untilTime s)
    (hremove : ∀ failed, ev ≠ .remove k failed) : Holds k untilTime (s.step ev) := by
  obtain ⟨hlocalHash, hclock⟩ := s.localIdentityHash_step ev
  obtain ⟨e, he, hlocal, huntil⟩ | ⟨hzero, hpassed⟩ := h
  · by_cases hsweep : ev = .sweep
    · subst hsweep
      by_cases hkept : e.untilTime.isZero || !e.untilTime.isBefore s.clock
      · refine .inl ⟨e, ?_, hlocal, huntil⟩
        refine (Table.lookup_keep _ s.entries k).trans ?_
        rw [he]
        exact if_pos hkept
      · rw [huntil, Bool.or_eq_true, not_or, Bool.not_eq_true, Bool.not_eq_true',
          Bool.not_eq_false] at hkept
        exact .inr hkept
    · exact .inl ⟨e, lookup_step_of_local he hlocal hremove hsweep, hlocalHash ▸ hlocal, huntil⟩
  · exact .inr ⟨hzero, Timestamp.isBefore_mono hpassed hclock⟩

lemma Holds.has {untilTime : Timestamp} (h : Holds k untilTime s) (hlen : k.length = hashLen)
    (htime : untilTime.isZero ∨ untilTime.isAfter s.clock) : s.has k := by
  obtain ⟨e, he, -, huntil⟩ | ⟨hzero, hpassed⟩ := h
  · have hnot : ¬ k.length ≠ hashLen := not_not.mpr hlen
    simp only [BlackholeTable.has, hnot, if_false, he, huntil, Bool.or_eq_true]
    exact htime
  · rw [hzero, Timestamp.isAfter_eq_false hpassed] at htime
    simp at htime

/-- **What the operator has added holds**: once `Add` has put an entry in, the identity is
blackholed at every time before its end, and for ever if it has none, unless it is removed. -/
theorem has_of_add {s s' : BlackholeTable} {identityHash reason : Bytes} {untilTime : Timestamp}
    {failed : Option String} (hadd : s.add identityHash untilTime reason failed = (s', true, none))
    (es : List BlackholeEvent) (hes : ∀ ev ∈ es, ∀ failed, ev ≠ .remove identityHash failed) :
    Run.Always step
      (fun t => untilTime.isZero = true ∨ untilTime.isAfter t.clock = true →
        t.has identityHash = true) s' es := by
  obtain ⟨-, hfalse⟩ | ⟨-, hlen, heq⟩ := s.add_cases identityHash untilTime reason failed
  · rw [hadd] at hfalse
    cases hfalse
  · have hs' : Holds identityHash untilTime s' := by
      rw [hadd] at heq
      dsimp only at heq
      rw [heq, Holds, (persistLocal_same _ failed).1, (persistLocal_same _ failed).2.2]
      refine .inl ⟨_, lookup_insert _, ?_, rfl⟩
      simp [hasSource]
    have hrun : Run.Always step (Holds identityHash untilTime) s' es :=
      Run.always_of_along (fun _ _ hs hev => hs.step hev) hs' (Run.along_of_forall hes)
    exact hrun.mono fun t ht htime => ht.has hlen htime

def localId : Bytes := replicate 16 1
def remoteId : Bytes := replicate 16 2
def bannedId : Bytes := replicate 16 3

def listed (source : Option Bytes) (untilTime : Timestamp) : BlackholeMap :=
  (∅ : BlackholeMap).insert bannedId ⟨source, untilTime, []⟩

/-- An entry until `9` is there after a list was merged, loaded and swept at `5`. -/
theorem has_of_add_until_nine :
    let s := new localId [] 0 (some ∅)
    let s' := (s.add bannedId (.finite 9) [] none).1
    let es := [.merge remoteId (listed none (.finite 6)) none, .load none fun _ => true, .wait 5,
      .sweep]
    (Run.exec step s' es).clock = 5 ∧ (Run.exec step s' es).has bannedId = true := by
  intro s s' es
  have hadd : s.add bannedId (.finite 9) [] none = (s', true, none) := rfl
  exact ⟨rfl, (has_of_add hadd es (by simp [es])).last (.inr (by decide +kernel))⟩

/-- **`Add` is refused** where a fetched entry is there.  It returns without an error, and when that
entry ends the identity is free. -/
theorem add_refused :
    let s := new localId [] 0 (some ∅)
    let merged := s.step (.merge remoteId (listed none (.finite 5)) none)
    let r := merged.add bannedId (.finite 0) [] none
    r.2 = (false, none) ∧ r.1.has bannedId = true ∧ (r.1.step (.wait 5)).has bannedId = false := by
  decide +kernel

/-! ## In whose name -/

def localSource (s : BlackholeTable) : Option Bytes :=
  if s.localIdentityHash = [] then none else some s.localIdentityHash

def localFileContent (s : BlackholeTable) : Option BlackholeMap :=
  s.files.bind (·.lookup .localFile)

structure Authentic (s : BlackholeTable) : Prop where
  /-- What is local was put in by the operator, and not taken out. -/
  local_authored : ∀ k e, s.entries.lookup k = some e → e.hasSource s.localIdentityHash = true →
    (k, e) ∈ s.authored
  /-- What the operator has put in is there, and local. -/
  added_local : ∀ k e, s.added.lookup k = some e →
    s.entries.lookup k = some e ∧ e.hasSource s.localIdentityHash = true
  file_authored : ∀ content, s.localFileContent = some content →
    ∀ k e, content.lookup k = some e → (k, e.credit s.localSource) ∈ s.authored

def Writes (s s' : BlackholeTable) : Prop :=
  s'.localFileContent = s.localFileContent ∨ s'.localFileContent = some s'.localEntries

structure Genuine (s : BlackholeTable) (ev : BlackholeEvent) : Prop where
  authentic : (s.step ev).Authentic
  /-- `PersistLocal` writes the local entries. -/
  written : Writes s (s.step ev)
  /-- Merging does not create, change or remove local entries. -/
  merged_local : ∀ sourceHash decoded failed, ev = .merge sourceHash decoded failed →
    ∀ k e, e.hasSource s.localIdentityHash = true →
      ((s.step ev).entries.lookup k = some e ↔ s.entries.lookup k = some e)
  /-- What is merged from a source has that source. -/
  merged_source : ∀ sourceHash decoded failed, ev = .merge sourceHash decoded failed →
    ∀ k e, (s.step ev).entries.lookup k = some e →
      s.entries.lookup k = some e ∨ e.source = some sourceHash
  /-- What is loaded has the source of the file it is in. -/
  loaded_source : ∀ failed readable, ev = .load failed readable →
    ∀ k e, (s.step ev).entries.lookup k = some e → s.entries.lookup k = some e ∨
      ∃ files f content, s.files = some files ∧ files.lookup f = some content ∧ k ∈ content ∧
        s.creditedTo f = some e.source

def NamesOnly (source : Option Bytes) (m : BlackholeMap) : Prop :=
  ∀ d ∈ m.entries, d.2.source = none ∨ d.2.source = source

/-- Lists that are merged, and files that are loaded, name no source but their own, and none of them
is under the name of the local identity. -/
def Attributed (s : BlackholeTable) : BlackholeEvent → Prop
  | .merge sourceHash decoded _ =>
    sourceHash ≠ s.localIdentityHash ∧ NamesOnly (some sourceHash) decoded
  | .load _ _ =>
    ∀ files ∈ s.files, ∀ f ∈ files.entries, f.1 ≠ .remote s.localIdentityHash ∧
      ∀ source ∈ s.creditedTo f.1, NamesOnly source f.2
  | _ => True

instance decidableNamesOnly (source : Option Bytes) (m : BlackholeMap) :
    Decidable (NamesOnly source m) := by
  unfold NamesOnly
  infer_instance

instance decidableAttributed (s : BlackholeTable) (ev : BlackholeEvent) :
    Decidable (s.Attributed ev) := by
  cases ev <;> unfold Attributed <;> infer_instance

lemma credit_source {source : Option Bytes} {m : BlackholeMap} (hm : NamesOnly source m)
    (he : m.lookup k = some e) : (e.credit source).source = source := by
  obtain hnone | hsome := hm _ (Table.lookup_eq_some_iff.mp he)
  · rw [credit, if_pos hnone]
  · rw [credit]
    split_ifs
    · rfl
    · exact hsome

lemma credit_of_hasSource (h : e.hasSource s.localIdentityHash) : e.credit s.localSource = e := by
  rw [hasSource, decide_eq_true_eq] at h
  rw [credit, localSource]
  split_ifs with hnone hlocal
  · cases e
    simp_all
  · rw [hnone] at h
    exact absurd h.symm hlocal
  · rfl

lemma authentic_new (localIdentityHash : Bytes) (enabledSources : List Bytes) (clock : ℤ)
    (files : Option (Map SourceFile BlackholeMap)) :
    (new localIdentityHash enabledSources clock files).Authentic where
  local_authored := by
    intro k e he
    simp [new] at he
  added_local := by
    intro k e he
    simp [new] at he
  file_authored := by
    intro content hcontent k e he
    have hfile : files.bind (·.lookup .localFile) = some content := hcontent
    simp only [new, hfile]
    exact mem_map.mpr ⟨⟨k, e⟩, Table.lookup_eq_some_iff.mp he, rfl⟩

/-! ### One step -/

lemma lookup_localEntries : s.localEntries.lookup k = some e ↔
    s.entries.lookup k = some e ∧ e.hasSource s.localIdentityHash := by
  rw [localEntries, Table.lookup_keep, filter_eq_some_iff]

lemma Authentic.persistLocal (h : s.Authentic) (failed : Option String) :
    (s.persistLocal failed).1.Authentic ∧ Writes s (s.persistLocal failed).1 := by
  obtain ⟨heq, -⟩ | ⟨files, -, heq⟩ := s.persistLocal_cases failed
  · rw [heq]
    exact ⟨h, .inl rfl⟩
  · rw [heq]
    have hcontent :
        localFileContent { s with files := some (files.insert .localFile s.localEntries) } =
          some s.localEntries := by
      simp [localFileContent]
    refine ⟨{ h with file_authored := fun content hfile k e he => ?_ }, .inr hcontent⟩
    cases hfile
    obtain ⟨hentry, hlocal⟩ := lookup_localEntries.mp he
    have hcredit := credit_of_hasSource hlocal
    exact hcredit.symm ▸ h.local_authored k e hentry hlocal

lemma localFileContent_persistLocal (h : (s.persistLocal failed).2 = none) {content : BlackholeMap}
    (hcontent : (s.persistLocal failed).1.localFileContent = some content) :
    content = s.localEntries := by
  obtain ⟨heq, herr⟩ | ⟨files, -, heq⟩ := s.persistLocal_cases failed
  · rw [heq] at hcontent
    obtain ⟨files, hfiles, -⟩ := bind_eq_some_iff.mp hcontent
    exact absurd h (herr (by simp [hfiles]))
  · rw [heq] at hcontent
    simpa [localFileContent, eq_comm] using hcontent

section

variable (h : s.Authentic)
include h

lemma Authentic.insert {identityHash : Bytes}
    (hnone : s.entries.lookup identityHash = none) (he : e.hasSource s.localIdentityHash) :
    Authentic { s with
      entries := s.entries.insert identityHash e
      added := s.added.insert identityHash e
      authored := s.authored ++ [(identityHash, e)] } where
  local_authored := by
    intro k e' hk hlocal
    by_cases heq : k = identityHash
    · subst heq
      rw [lookup_insert] at hk
      cases hk
      exact mem_append_right _ (mem_singleton_self _)
    · rw [lookup_insert_ne heq] at hk
      exact mem_append_left _ (h.local_authored k e' hk hlocal)
  added_local := by
    intro k e' hk
    by_cases heq : k = identityHash
    · subst heq
      rw [lookup_insert] at hk
      cases hk
      exact ⟨lookup_insert _, he⟩
    · rw [lookup_insert_ne heq] at hk
      obtain ⟨hentry, hlocal⟩ := h.added_local k e' hk
      exact ⟨(lookup_insert_ne heq).trans hentry, hlocal⟩
  file_authored content hcontent k e' hk :=
    mem_append_left _ (h.file_authored content hcontent k e' hk)

lemma Authentic.erase (identityHash : Bytes) :
    Authentic { s with
      entries := s.entries.erase identityHash
      added := s.added.erase identityHash } where
  local_authored := by
    intro k e' hk hlocal
    rw [Table.lookup_erase] at hk
    split_ifs at hk
    exact h.local_authored k e' hk hlocal
  added_local := by
    intro k e' hk
    rw [Table.lookup_erase] at hk ⊢
    split_ifs at hk with heq
    rw [if_neg heq]
    exact h.added_local k e' hk
  file_authored := h.file_authored

lemma Authentic.forget {identityHash : Bytes} (hmemory : s.entries.lookup identityHash = none)
    (hfile : ∀ content, s.localFileContent = some content → content.lookup identityHash = none) :
    Authentic { s with authored := s.authored.filter fun a => a.1 ≠ identityHash } where
  local_authored := by
    intro k e' hk hlocal
    refine mem_filter.mpr ⟨h.local_authored k e' hk hlocal, ?_⟩
    rw [decide_eq_true_eq]
    rintro rfl
    rw [hmemory] at hk
    cases hk
  added_local := h.added_local
  file_authored := by
    intro content hcontent k e' hk
    refine mem_filter.mpr ⟨h.file_authored content hcontent k e' hk, ?_⟩
    rw [decide_eq_true_eq]
    intro (heq : k = identityHash)
    rw [heq, hfile content hcontent] at hk
    cases hk

lemma Authentic.add (identityHash : Bytes) (untilTime : Timestamp)
    (reason : Bytes) (failed : Option String) :
    (s.add identityHash untilTime reason failed).1.Authentic ∧
      Writes s (s.add identityHash untilTime reason failed).1 := by
  obtain ⟨heq, -⟩ | ⟨hnone, -, heq⟩ := s.add_cases identityHash untilTime reason failed
  · rw [heq]
    exact ⟨h, .inl rfl⟩
  · rw [heq]
    exact (h.insert hnone (by simp [hasSource])).persistLocal failed

lemma Authentic.remove (identityHash : Bytes) (failed : Option String) :
    (s.remove identityHash failed).1.Authentic ∧ Writes s (s.remove identityHash failed).1 := by
  have herase := h.erase identityHash
  obtain heq | ⟨hwritten, heq⟩ | ⟨-, heq⟩ := s.remove_cases identityHash failed
  · rw [heq]
    exact ⟨h, .inl rfl⟩
  · obtain ⟨hauthentic, hwrites⟩ := herase.persistLocal failed
    rw [heq]
    refine ⟨hauthentic.forget ?_ ?_, hwrites⟩
    · rw [(persistLocal_same _ failed).2.2]
      exact lookup_erase _ _
    · intro content hcontent
      rw [localFileContent_persistLocal hwritten hcontent, ← not_isSome_iff_eq_none]
      intro hsome
      obtain ⟨e, he⟩ := isSome_iff_exists.mp hsome
      have hentry := (lookup_localEntries.mp he).1
      rw [lookup_erase] at hentry
      cases hentry
  · rw [heq]
    exact herase.persistLocal failed

lemma Authentic.sweep : (s.step .sweep).Authentic where
  local_authored := by
    intro k e' hk hlocal
    refine h.local_authored k e' ?_ hlocal
    have hkept := (Table.lookup_keep _ s.entries k).symm.trans hk
    exact (filter_eq_some_iff.mp hkept).1
  added_local := by
    intro k e' hk
    have hkept := (Table.lookup_keep _ s.added k).symm.trans hk
    obtain ⟨hadded, hp⟩ := filter_eq_some_iff.mp hkept
    obtain ⟨hentry, hlocal⟩ := h.added_local k e' hadded
    refine ⟨(Table.lookup_keep _ s.entries k).trans ?_, hlocal⟩
    rw [hentry]
    exact filter_eq_some_iff.mpr ⟨rfl, hp⟩
  file_authored := h.file_authored

end

lemma hasSource_eq_false {source : Bytes} (he : e.source = some source)
    (hne : source ≠ s.localIdentityHash) : e.hasSource s.localIdentityHash = false := by
  rw [hasSource, he]
  exact decide_eq_false hne

lemma Authentic.merge (h : s.Authentic) {sourceHash : Bytes} {decoded : BlackholeMap}
    (hev : s.Attributed (.merge sourceHash decoded failed)) :
    s.Genuine (.merge sourceHash decoded failed) := by
  obtain ⟨entries, files, heq, hentries, hfile⟩ := s.mergeRemote_eq sourceHash decoded failed
  have hput : ∀ k e, entries.lookup k = some e → s.entries.lookup k = some e ∨
      e.source = some sourceHash := by
    intro k e he
    obtain hsame | ⟨source, e', ⟨rfl, he'⟩, -, hlookup⟩ := hentries k
    · exact .inl (hsame ▸ he)
    · rw [hlookup] at he
      cases he
      exact .inr (credit_source hev.2 he')
  have hlocal : ∀ k e, e.hasSource s.localIdentityHash →
      (entries.lookup k = some e ↔ s.entries.lookup k = some e) := by
    intro k e he
    constructor
    · intro hk
      obtain hsame | hsource := hput k e hk
      · exact hsame
      · rw [hasSource_eq_false hsource hev.1] at he
        cases he
    · intro hk
      exact (hentries k).of_local hk he
  have hfile' : localFileContent { s with entries, files } =
      s.localFileContent := hfile
  have hstep : s.step (.merge sourceHash decoded failed) =
      { s with entries, files } := heq
  constructor
  · rw [hstep]
    refine ⟨fun k e hk he => ?_, fun k e hk => ?_, fun content hcontent => ?_⟩
    · exact h.local_authored k e ((hlocal k e he).mp hk) he
    · obtain ⟨hentry, he⟩ := h.added_local k e hk
      exact ⟨(hlocal k e he).mpr hentry, he⟩
    · exact h.file_authored content (hfile'.symm.trans hcontent)
  · rw [hstep]
    exact .inl hfile'
  · rw [hstep]
    exact fun _ _ _ _ => hlocal
  · rintro _ _ _ ⟨⟩
    rw [hstep]
    exact hput
  · rintro _ _ ⟨⟩

lemma Authentic.load (h : s.Authentic) {readable : SourceFile → Bool}
    (hev : s.Attributed (.load failed readable)) : s.Genuine (.load failed readable) := by
  obtain ⟨entries, heq, hentries⟩ := s.loadAll_eq failed readable
  have hput : ∀ k e, entries.lookup k = some e → s.entries.lookup k = some e ∨
      ∃ files f content e', s.files = some files ∧ files.lookup f = some content ∧
        content.lookup k = some e' ∧ s.creditedTo f = some e.source ∧ e = e'.credit e.source ∧
        f ≠ .remote s.localIdentityHash := by
    intro k e he
    obtain hsame | ⟨source, e', ⟨files, f, content, hfiles, hf, hsource, he'⟩, -, hlookup⟩ :=
      hentries k
    · exact .inl (hsame ▸ he)
    · rw [hlookup] at he
      cases he
      obtain ⟨hne, hnames⟩ := hev files hfiles ⟨f, content⟩ (Table.lookup_eq_some_iff.mp hf)
      have hcredit := credit_source (hnames source hsource) he'
      exact .inr ⟨files, f, content, e', hfiles, hf, he', by rw [hcredit, hsource],
        by rw [hcredit], hne⟩
  have hstep : s.step (.load failed readable) = { s with entries } := heq
  constructor
  · rw [hstep]
    refine ⟨fun k e hk he => ?_, fun k e hk => ?_, h.file_authored⟩
    · obtain hsame | ⟨files, f, content, e', hfiles, hf, he', hsource, hcredit, hne⟩ := hput k e hk
      · exact h.local_authored k e hsame he
      · cases f with
        | localFile =>
          have hcontent : s.localFileContent = some content := by
            rw [localFileContent, hfiles]
            exact hf
          have hlocal : e.source = s.localSource := (some.inj hsource).symm
          rw [hcredit, hlocal]
          exact h.file_authored content hcontent k e' he'
        | remote source =>
          simp only [creditedTo] at hsource
          split_ifs at hsource
          have hfalse := hasSource_eq_false (some.inj hsource).symm
            fun heq => hne (by rw [heq])
          rw [hfalse] at he
          cases he
    · obtain ⟨hentry, he⟩ := h.added_local k e hk
      exact ⟨(hentries k).of_local hentry he, he⟩
  · rw [hstep]
    exact .inl rfl
  · rintro _ _ _ ⟨⟩
  · rintro _ _ _ ⟨⟩
  · rintro _ _ ⟨⟩ k e hk
    rw [hstep] at hk
    obtain hsame | ⟨files, f, content, e', hfiles, hf, he', hsource, -, -⟩ := hput k e hk
    · exact .inl hsame
    · exact .inr ⟨files, f, content, hfiles, hf, lookup_isSome.mp (by simp [he']), hsource⟩

/-- **One step** keeps the sources genuine, if what it reads is attributed. -/
lemma Authentic.genuine (h : s.Authentic) (hev : s.Attributed ev) : s.Genuine ev := by
  cases ev with
  | merge sourceHash decoded failed => exact h.merge hev
  | load failed readable => exact h.load hev
  | add identityHash untilTime reason failed =>
    obtain ⟨hauthentic, hwrites⟩ := h.add identityHash untilTime reason failed
    exact ⟨hauthentic, hwrites, by simp, by simp, by simp⟩
  | remove identityHash failed =>
    obtain ⟨hauthentic, hwrites⟩ := h.remove identityHash failed
    exact ⟨hauthentic, hwrites, by simp, by simp, by simp⟩
  | persist failed =>
    obtain ⟨hauthentic, hwrites⟩ := h.persistLocal failed
    exact ⟨hauthentic, hwrites, by simp, by simp, by simp⟩
  | sweep => exact ⟨h.sweep, .inl rfl, by simp, by simp, by simp⟩
  | wait seconds =>
    exact ⟨{ h with }, .inl rfl, by simp, by simp,
      by simp⟩

/-- **Nobody speaks in the operator's name**, and no source in that of another, where lists and
files name no source but their own. -/
theorem genuine_of_attributed (localIdentityHash : Bytes) (enabledSources : List Bytes) (clock : ℤ)
    (files : Option (Map SourceFile BlackholeMap)) (es : List BlackholeEvent)
    (h : Run.Along step Attributed (new localIdentityHash enabledSources clock files) es) :
    Run.Along step Genuine (new localIdentityHash enabledSources clock files) es :=
  Run.along_mono (fun _ _ hs hev => (hs.genuine hev).authentic) (fun _ _ hs hev => hs.genuine hev)
    (authentic_new localIdentityHash enabledSources clock files) h

/-- A list without sources is merged; the local file has the operator's entry alone. -/
theorem genuine_of_list :
    let es := [.merge remoteId (listed none (.finite 0)) none, .add localId (.finite 9) [] none,
      .load none fun _ => true]
    Run.Along step Genuine (new localId [] 0 (some ∅)) es ∧
      (Run.exec step (new localId [] 0 (some ∅)) es).localFileContent.map (·.keys) =
        some [localId] :=
  ⟨genuine_of_attributed _ _ _ _ _ (by decide +kernel), by decide +kernel⟩

/-- **The source is forged**: a fetched list names the local identity as the source of its entry.
The entry is local then, and goes into the local file with the next one that is added. -/
theorem source_forged :
    let s := (new localId [] 0 (some ∅)).step
      (.merge remoteId (listed (some localId) (.finite 0)) none)
    let s' := s.step (.add localId (.finite 9) [] none)
    (s.entries.lookup bannedId).map (·.source) = some (some localId) ∧
      s'.localFileContent.map (·.keys) = some [localId, bannedId] ∧ s'.added.keys = [localId] := by
  decide +kernel

end BlackholeTable

end Reticulum
