import Mathlib.Algebra.Order.Ring.Rat
import Reticulum.Core.Bytes
import Reticulum.Core.Run
import Reticulum.Core.Table

/-!
# The blackhole table

Identities whose announces are to be ignored are **blackholed** (`pkg/blackhole/blackhole.go`).  An
entry of the table has a source: the local identity for those that the operator has added (`Add`),
and another transport instance for those of a list that was fetched (`MergeRemote`).  Each source
has a file, given here by the map that it decodes to.
-/

namespace Reticulum

/-! ## Entries -/

inductive Timestamp where
  | nan
  | negInf
  | finite (x : ℚ)
  | posInf
deriving DecidableEq

namespace Timestamp

def isZero : Timestamp → Bool
  | .finite x => x = 0
  | _ => false

def isAfter (t : Timestamp) (now : ℤ) : Bool :=
  match t with
  | .finite x => now < x
  | .posInf => true
  | _ => false

def isBefore (t : Timestamp) (now : ℤ) : Bool :=
  match t with
  | .finite x => x < now
  | .negInf => true
  | _ => false

def isReached (t : Timestamp) (now : ℤ) : Bool :=
  match t with
  | .finite x => x ≤ now
  | .negInf => true
  | _ => false

lemma isBefore_mono {t : Timestamp} {now later : ℤ} (h : t.isBefore now)
    (hle : now ≤ later) : t.isBefore later := by
  cases t with
  | finite x =>
    simp only [isBefore, decide_eq_true_eq] at h ⊢
    exact h.trans_le (by exact_mod_cast hle)
  | negInf => rfl
  | _ => cases h

lemma isAfter_eq_false {t : Timestamp} {now : ℤ} (h : t.isBefore now) : t.isAfter now = false := by
  cases t with
  | finite x =>
    simp only [isBefore, isAfter, decide_eq_true_eq, decide_eq_false_iff_not, not_lt] at h ⊢
    exact h.le
  | negInf => rfl
  | _ => cases h

end Timestamp

def hashLen : ℕ := 16

/-- An entry that was decoded without a source has none. -/
structure BlackholeEntry where
  source : Option Bytes
  untilTime : Timestamp
  reason : Bytes
deriving DecidableEq

namespace BlackholeEntry

def hasSource (e : BlackholeEntry) (hash : Bytes) : Bool := e.source.getD [] = hash

def credit (e : BlackholeEntry) (source : Option Bytes) : BlackholeEntry :=
  if e.source = none then { e with source := source } else e

def expired (e : BlackholeEntry) (now : ℤ) : Bool :=
  !e.untilTime.isZero && e.untilTime.isReached now

end BlackholeEntry

abbrev BlackholeMap : Type := Map Bytes BlackholeEntry

/-- A file in the directory: `local`, or one that is named after a source. -/
inductive SourceFile where
  | remote (source : Bytes)
  | localFile
deriving DecidableEq

/-- The order of the names.  Hexadecimal digits come before `local`. -/
def SourceFile.le : SourceFile → SourceFile → Bool
  | .remote a, .remote b => a ≤ b
  | .remote _, .localFile => true
  | .localFile, .remote _ => false
  | .localFile, .localFile => true

/-! ## The table -/

structure BlackholeTable where
  /-- empty until `SetLocalIdentityHash` is called -/
  localIdentityHash : Bytes
  /-- the sources of which files are loaded; all of them if there are none -/
  enabledSources : List Bytes
  clock : ℤ
  entries : BlackholeMap
  /-- the directory; without one nothing is kept on disk -/
  files : Option (Map SourceFile BlackholeMap)
  /-- what `Add` has put in, and neither `Remove` nor `SweepExpired` has taken out -/
  added : BlackholeMap
  /-- what `Add` has put in or was in the local file at first, and `Remove` has not taken out of
  both -/
  authored : List (Bytes × BlackholeEntry)

/-- A call.  Where it reads or writes files, `failed` is the error that there is. -/
inductive BlackholeEvent where
  | add (identityHash : Bytes) (untilTime : Timestamp) (reason : Bytes) (failed : Option String)
  | remove (identityHash : Bytes) (failed : Option String)
  | merge (sourceHash : Bytes) (decoded : BlackholeMap) (failed : Option String)
  | persist (failed : Option String)
  | load (failed : Option String) (readable : SourceFile → Bool)
  | sweep
  | wait (seconds : ℕ)

namespace BlackholeTable

section

variable (s : BlackholeTable)

def has (identityHash : Bytes) : Bool :=
  if identityHash.length ≠ hashLen then false
  else
    match s.entries.lookup identityHash with
    | none => false
    | some e => e.untilTime.isZero || e.untilTime.isAfter s.clock

def localEntries : BlackholeMap :=
  Table.keep (fun _ e => e.hasSource s.localIdentityHash) s.entries

def persistLocal (failed : Option String) : BlackholeTable × Option String :=
  match s.files, failed with
  | none, _ => (s, none)
  | some _, some err => (s, some err)
  | some files, none => ({ s with files := some (files.insert .localFile s.localEntries) }, none)

def add (identityHash : Bytes) (untilTime : Timestamp) (reason : Bytes)
    (failed : Option String) : BlackholeTable × Bool × Option String :=
  if identityHash.length ≠ hashLen then
    (s, false, some "blackhole: identity hash must be 16 bytes")
  else if s.localIdentityHash.length ≠ hashLen then
    (s, false, some "blackhole: SetLocalIdentityHash has not been called")
  else if (s.entries.lookup identityHash).isSome then (s, false, none)
  else
    let entry : BlackholeEntry :=
      { source := some s.localIdentityHash, untilTime := untilTime, reason := reason }
    let persisted := persistLocal
      { s with
        entries := s.entries.insert identityHash entry
        added := s.added.insert identityHash entry
        authored := s.authored ++ [(identityHash, entry)] } failed
    (persisted.1, true, persisted.2)

def remove (identityHash : Bytes) (failed : Option String) :
    BlackholeTable × Bool × Option String :=
  if identityHash.length ≠ hashLen then
    (s, false, some "blackhole: identity hash must be 16 bytes")
  else if (s.entries.lookup identityHash).isNone then (s, false, none)
  else
    let persisted := persistLocal
      { s with
        entries := s.entries.erase identityHash
        added := s.added.erase identityHash } failed
    if persisted.2 = none then
      ({ persisted.1 with authored := persisted.1.authored.filter fun a => a.1 ≠ identityHash },
        true, none)
    else (persisted.1, true, persisted.2)

/-- One round of the loop over a decoded map, which `MergeRemote` and `LoadAll` have in common. -/
def mergeEntry (localHash : Bytes) (now : ℤ) (source : Option Bytes) (entries : BlackholeMap)
    (d : Sigma fun _ : Bytes => BlackholeEntry) : BlackholeMap :=
  if d.1.length ≠ hashLen then entries
  else if (entries.lookup d.1).any (·.hasSource localHash) then entries
  else if d.2.expired now then entries
  else entries.insert d.1 (d.2.credit source)

def mergeEntries (localHash : Bytes) (now : ℤ) (source : Option Bytes) (entries : BlackholeMap)
    (decoded : BlackholeMap) : BlackholeMap :=
  decoded.entries.foldl (mergeEntry localHash now source) entries

def sourceContent (sourceHash : Bytes) (decoded : BlackholeMap) : BlackholeMap :=
  Table.mapValues (·.credit (some sourceHash))
    (Table.keep (fun hash _ => hash.length = hashLen) decoded)

def mergeRemote (sourceHash : Bytes) (decoded : BlackholeMap)
    (failed : Option String) : BlackholeTable × Option String :=
  if sourceHash.length ≠ hashLen then (s, some "blackhole: source hash must be 16 bytes")
  else
    let s' := { s with
      entries := mergeEntries s.localIdentityHash s.clock (some sourceHash) s.entries decoded }
    match s.files, failed with
    | none, _ => (s', none)
    | some _, some err => (s', some err)
    | some files, none =>
      ({ s' with
        files := some (files.insert (.remote sourceHash) (sourceContent sourceHash decoded)) },
        none)

/-- The source that a file is credited to; a file that is skipped has none.  Without a local
identity the local file has entries without a source. -/
def creditedTo : SourceFile → Option (Option Bytes)
  | .localFile => some (if s.localIdentityHash = [] then none else some s.localIdentityHash)
  | .remote source =>
    if source.length ≠ hashLen then none
    else if s.enabledSources ≠ [] ∧ source ∉ s.enabledSources then none
    else some (some source)

def loadFile (readable : SourceFile → Bool) (s : BlackholeTable)
    (f : Sigma fun _ : SourceFile => BlackholeMap) : BlackholeTable :=
  match s.creditedTo f.1 with
  | none => s
  | some source =>
    if readable f.1 then
      { s with
        entries := mergeEntries s.localIdentityHash s.clock source s.entries f.2 }
    else s

def listing (files : Map SourceFile BlackholeMap) :
    List (Sigma fun _ : SourceFile => BlackholeMap) :=
  files.entries.insertionSort fun a b => a.1.le b.1

def loadAll (failed : Option String) (readable : SourceFile → Bool) :
    BlackholeTable × Option String :=
  match s.files, failed with
  | none, _ => (s, none)
  | some _, some err => (s, some err)
  | some files, none => ((listing files).foldl (loadFile readable) s, none)

def sweepExpired : BlackholeTable × ℕ :=
  let kept (e : BlackholeEntry) : Bool := e.untilTime.isZero || !e.untilTime.isBefore s.clock
  let entries := Table.keep (fun _ e => kept e) s.entries
  ({ s with entries := entries, added := Table.keep (fun _ e => kept e) s.added },
    s.entries.entries.length - entries.entries.length)

def step : BlackholeEvent → BlackholeTable
  | .add identityHash untilTime reason failed => (s.add identityHash untilTime reason failed).1
  | .remove identityHash failed => (s.remove identityHash failed).1
  | .merge sourceHash decoded failed => (s.mergeRemote sourceHash decoded failed).1
  | .persist failed => (s.persistLocal failed).1
  | .load failed readable => (s.loadAll failed readable).1
  | .sweep => s.sweepExpired.1
  | .wait seconds => { s with clock := s.clock + seconds }

end

/-- A table with an empty memory.  The operator has put in what the local file holds. -/
def new (localIdentityHash : Bytes) (enabledSources : List Bytes) (clock : ℤ)
    (files : Option (Map SourceFile BlackholeMap)) : BlackholeTable where
  localIdentityHash := localIdentityHash
  enabledSources := enabledSources
  clock := clock
  entries := ∅
  files := files
  added := ∅
  authored :=
    match files.bind (·.lookup .localFile) with
    | none => []
    | some content => content.entries.map fun d =>
      (d.1, d.2.credit (if localIdentityHash = [] then none else some localIdentityHash))

end BlackholeTable

end Reticulum
