import Reticulum.Core.Bytes
import Reticulum.Core.Feed

/-!
# Escapes at the terminal

At the start of a line the client of a remote shell looks for escapes (`pkg/rgosh/escape.go`): `~.`
quits, `~L` and `~?` are other actions, `~~` is a tilde.  A call of `Feed` returns the bytes to
forward and **one** action.  `Terminal.read_eq_single`: how the input is cut into calls does not
change the bytes, nor the actions if no piece holds two.
-/

namespace Reticulum

inductive EscapeAction where
  | none
  | quit
  | toggleLine
  | help
deriving DecidableEq

structure EscapeFilter where
  preEsc : Bool
  esc : Bool
deriving DecidableEq

namespace EscapeFilter

def new : EscapeFilter := ⟨true, false⟩

def isNewline (c : UInt8) : Bool := c = '\r'.toUInt8 || c = '\n'.toUInt8

/-- The body of the loop of `Feed`: what a byte adds to the output, and the action it gives. -/
def feedByte (e : EscapeFilter) (c : UInt8) : EscapeFilter × Bytes × EscapeAction :=
  if e.esc then
    if c = '.'.toUInt8 then ({ e with esc := false }, [], .quit)
    else if c = 'L'.toUInt8 then ({ e with esc := false }, [], .toggleLine)
    else if c = '?'.toUInt8 then ({ e with esc := false }, [], .help)
    else if c = '~'.toUInt8 then (⟨false, false⟩, ['~'.toUInt8], .none)
    else (⟨isNewline c, false⟩, ['~'.toUInt8, c], .none)
  else if e.preEsc ∧ c = '~'.toUInt8 then (⟨false, true⟩, [], .none)
  else ({ e with preEsc := isNewline c }, [c], .none)

/-- The loop, with the output and the action so far.  An action is overwritten by a later one. -/
def feedLoop (e : EscapeFilter) (out : Bytes) (action : EscapeAction) :
    Bytes → EscapeFilter × Bytes × EscapeAction
  | [] => (e, out, action)
  | c :: rest =>
    let r := e.feedByte c
    if r.2.2 = .quit then (r.1, out ++ r.2.1, .quit)
    else feedLoop r.1 (out ++ r.2.1) (if r.2.2 = .none then action else r.2.2) rest

def feed (e : EscapeFilter) (input : Bytes) : EscapeFilter × Bytes × EscapeAction :=
  e.feedLoop [] .none input

end EscapeFilter

/-- The filter, until the client has quit. -/
abbrev Terminal := Option EscapeFilter

namespace Terminal

variable (t : Terminal)

open EscapeFilter

def answer (r : EscapeFilter × Bytes × EscapeAction) : Terminal × List (Bytes × EscapeAction) :=
  (if r.2.2 = .quit then none else some r.1, [r.2])

def read (input : Bytes) : Terminal × List (Bytes × EscapeAction) :=
  t.elim (none, []) fun e => answer (e.feed input)

def readByte (c : UInt8) : Terminal × List (Bytes × EscapeAction) :=
  t.elim (none, []) fun e => answer (e.feedByte c)

def output (answers : List (Bytes × EscapeAction)) : Bytes := answers.flatMap Prod.fst

def actions (answers : List (Bytes × EscapeAction)) : List EscapeAction :=
  (answers.map Prod.snd).filter (· ≠ .none)

@[simp] lemma output_append (as bs : List (Bytes × EscapeAction)) :
    output (as ++ bs) = output as ++ output bs := List.flatMap_append

@[simp] lemma actions_append (as bs : List (Bytes × EscapeAction)) :
    actions (as ++ bs) = actions as ++ actions bs := by
  simp [actions]

@[simp] lemma run_readByte_none (input : Bytes) : Feed.run readByte none input = (none, []) := by
  induction input with
  | nil => rfl
  | cons c rest ih => simpa [readByte] using ih

/-- **A piece is read as its bytes are**, but of the actions the last one is left. -/
lemma feedLoop_eq (e : EscapeFilter) (out : Bytes) {action : EscapeAction} (ha : action ≠ .quit)
    (input : Bytes) :
    let r := Feed.run readByte (some e) input
    (answer (e.feedLoop out action input)).1 = r.1 ∧ (e.feedLoop out action input).2 =
      (out ++ output r.2, (actions r.2).getLast?.getD action) := by
  induction input generalizing e out action with
  | nil => simp [feedLoop, answer, ha, output, actions]
  | cons c rest ih =>
    simp only [feedLoop, Feed.run_cons, readByte, Option.elim_some, Feed.andThen]
    obtain ⟨e', o, a⟩ := e.feedByte c
    by_cases hquit : a = .quit
    · simp [answer, hquit, output, actions]
    · have ha' : (if a = .none then action else a) ≠ .quit := by split_ifs <;> assumption
      obtain ⟨hstate, hrest⟩ := ih e' (out ++ o) ha'
      simp only [answer, hquit] at hstate ⊢
      refine ⟨hstate, hrest.trans ?_⟩
      by_cases hnone : a = .none
      · simp [output, actions, hnone]
      · simp [output, actions, hnone, List.getLast?_cons]

lemma read_eq (input : Bytes) :
    (t.read input).1 = (Feed.run readByte t input).1 ∧
      output (t.read input).2 = output (Feed.run readByte t input).2 ∧
      actions (t.read input).2 = (actions (Feed.run readByte t input).2).getLast?.toList := by
  cases t with
  | none => simp [read, actions]
  | some e =>
    obtain ⟨hstate, hanswer⟩ := feedLoop_eq e [] (by nofun : EscapeAction.none ≠ .quit) input
    refine ⟨hstate, ?_, ?_⟩
    · simp [read, answer, feed, hanswer, output]
    · cases hlast : (actions (Feed.run readByte (some e) input).2).getLast? with
      | none =>
        rw [hlast] at hanswer
        simp [read, answer, feed, hanswer, actions]
      | some a =>
        have ha := (List.mem_filter.1 (List.mem_of_getLast? hlast)).2
        rw [hlast] at hanswer
        simpa [read, answer, feed, hanswer, actions] using ha

lemma read_singleton (c : UInt8) : t.read [c] = t.readByte c := by
  cases t with
  | none => rfl
  | some e =>
    simp only [read, readByte, Option.elim_some, feed, feedLoop]
    obtain ⟨e', out, a⟩ := e.feedByte c
    cases a <;> rfl

lemma toList_getLast?_eq {as : List EscapeAction} (h : as.length ≤ 1) : as.getLast?.toList = as :=
  match as, h with
  | [], _ | [_], _ => rfl

lemma length_toList_getLast?_le (as : List EscapeAction) :
    as.getLast?.toList.length ≤ 1 ∧ as.getLast?.toList.length ≤ as.length := by
  cases as with
  | nil => simp
  | cons a as => simp [List.getLast?_cons]

/-- Only the last one is left of the first list, and nothing makes up for the others. -/
lemma toList_getLast?_append_eq_iff {as bs cs : List EscapeAction} (h : bs.length ≤ cs.length) :
    as.getLast?.toList ++ bs = as ++ cs ↔ as.length ≤ 1 ∧ bs = cs := by
  constructor
  · intro heq
    have hlen := congrArg List.length heq
    have hlast := length_toList_getLast?_le as
    rw [List.length_append, List.length_append] at hlen
    have hone : as.length ≤ 1 := by omega
    rw [toList_getLast?_eq hone] at heq
    exact ⟨hone, List.append_cancel_left heq⟩
  · rintro ⟨hone, rfl⟩
    rw [toList_getLast?_eq hone]

lemma length_actions_le (pieces : List Bytes) :
    (actions (Feed.run read t pieces).2).length ≤
      (actions (Feed.run readByte t pieces.flatten).2).length := by
  induction pieces generalizing t with
  | nil => simp
  | cons p pieces ih =>
    obtain ⟨hstate, -, hactions⟩ := t.read_eq p
    simp only [Feed.run_cons, Feed.andThen, List.flatten_cons, Feed.run_append, actions_append,
      List.length_append, hactions, ← hstate]
    exact Nat.add_le_add (length_toList_getLast?_le _).2 (ih _)

def OneAction (input : Bytes) : Prop :=
  (actions (Feed.run readByte t input).2).length ≤ 1

/-- **Pieces of input.**  What is forwarded is the same as for the bytes one at a time, and so are
the actions that are reported if and only if no piece up to the quit holds two. -/
theorem read_eq_single (t : Terminal) (pieces : List Bytes) :
    output (Feed.run read t pieces).2 =
        output (Feed.run read t (pieces.flatten.map fun c => [c])).2 ∧
      (actions (Feed.run read t pieces).2 =
          actions (Feed.run read t (pieces.flatten.map fun c => [c])).2 ↔
        Run.Along (fun t p => (t.read p).1) OneAction t pieces) := by
  rw [Feed.run_singletons read_singleton]
  induction pieces generalizing t with
  | nil => simp
  | cons p pieces ih =>
    obtain ⟨hstate, hout, hactions⟩ := t.read_eq p
    obtain ⟨hrest, hsame⟩ := ih (t.read p).1
    simp only [Feed.run_cons, Feed.andThen, List.flatten_cons, Feed.run_append, output_append,
      actions_append, hout, hactions, ← hstate, hrest, true_and]
    rw [toList_getLast?_append_eq_iff (length_actions_le _ _), hsame]
    rfl

def typedAhead : Bytes := [0x7E, 0x4C, 0x0A, 0x7E, 0x3F]

/-- Cut into pieces with one action each, the same input gives both. -/
theorem typedAhead_cut :
    let pieces : List Bytes := [[0x7E], [0x4C, 0x0A, 0x7E], [0x3F]]
    pieces.flatten = typedAhead ∧ actions (Feed.run read (some new) pieces).2 =
      actions (Feed.run read (some new) (pieces.flatten.map fun c => [c])).2 :=
  ⟨rfl, (read_eq_single _ _).2.2 (by unfold OneAction; decide)⟩

/-- Of two actions in a piece the first one is lost. -/
theorem typedAhead_toggle_lost :
    actions (Feed.run read (some new) [typedAhead]).2 ≠
      actions (Feed.run read (some new) (typedAhead.map fun c => [c])).2 := by
  decide

end Terminal

end Reticulum
