import Reticulum.Core.Text

/-!
# Splitting a command

`SplitShellCommand` cuts the command of a remote execution into its arguments (`pkg/rnsutil/x.go`).
An argument ends at a blank, *if anything has been collected*: the quotes of an empty argument leave
nothing behind, and the argument is lost (`splitShellCommand_quoted_iff`).  The bytes that are
looked for stand for themselves in UTF-8, so a text is the list of its characters here.
-/

namespace Reticulum.Rnsutil

open List

abbrev Arg := List Char

def singleQuote : Char := .ofNat 39
def doubleQuote : Char := .ofNat 34
def backslash : Char := .ofNat 92

/-- The variables of the loop over the characters. -/
structure ShellState where
  args : List Arg
  cur : Arg
  inQuote : Bool
  quoteCh : Char
  escaped : Bool
deriving DecidableEq

namespace ShellState

/-- Takes the next character.  A backslash escapes in double quotes only. -/
def step (s : ShellState) (c : Char) : ShellState :=
  if s.escaped then { s with cur := s.cur ++ [c], escaped := false }
  else if s.inQuote then
    if c = s.quoteCh then { s with inQuote := false }
    else if c = backslash ∧ s.quoteCh = doubleQuote then { s with escaped := true }
    else { s with cur := s.cur ++ [c] }
  else if c = doubleQuote ∨ c = singleQuote then { s with inQuote := true, quoteCh := c }
  else if c = ' ' ∨ c = '\t' then
    if s.cur ≠ [] then { s with args := s.args ++ [s.cur], cur := [] } else s
  else { s with cur := s.cur ++ [c] }

/-- The arguments when the command is at its end. -/
def finish (s : ShellState) : List Arg := if s.cur ≠ [] then s.args ++ [s.cur] else s.args

end ShellState

/-- The arguments of a command, without the blanks around it. -/
def splitShellCommand (command : List Char) : Except String (List Arg) :=
  let command := Text.trimSpace command
  if command = [] then .error "empty command"
  else
    let s := command.foldl ShellState.step ⟨[], [], false, .ofNat 0, false⟩
    if s.inQuote then .error "unclosed quote in command"
    else if s.finish = [] then .error "empty command"
    else .ok s.finish

/-! ## Quoting -/

/-- A character as it is written in double quotes. -/
def escape (c : Char) : List Char :=
  if c = doubleQuote ∨ c = backslash then [backslash, c] else [c]

/-- In single quotes if there is none in the argument, otherwise in double quotes. -/
def quote (a : Arg) : List Char :=
  if singleQuote ∈ a then doubleQuote :: (a.flatMap escape ++ [doubleQuote])
  else singleQuote :: (a ++ [singleQuote])

/-- The quoted arguments with a blank between each two. -/
def joined : List Arg → List Char
  | [] => []
  | [a] => quote a
  | a :: b :: rest => quote a ++ ' ' :: joined (b :: rest)

namespace ShellState

variable (args : List Arg) (cur : Arg)

lemma foldl_single {a : Arg} (ha : singleQuote ∉ a) :
    a.foldl step ⟨args, cur, true, singleQuote, false⟩ =
      ⟨args, cur ++ a, true, singleQuote, false⟩ := by
  induction a generalizing cur with
  | nil => simp
  | cons c a ih =>
    rw [mem_cons, not_or] at ha
    have hstep : step ⟨args, cur, true, singleQuote, false⟩ c =
        ⟨args, cur ++ [c], true, singleQuote, false⟩ := by
      simp [step, Ne.symm ha.1, show singleQuote ≠ doubleQuote by decide]
    rw [foldl_cons, hstep, ih _ ha.2, append_assoc, singleton_append]

lemma foldl_double (a : Arg) :
    (a.flatMap escape).foldl step ⟨args, cur, true, doubleQuote, false⟩ =
      ⟨args, cur ++ a, true, doubleQuote, false⟩ := by
  induction a generalizing cur with
  | nil => simp
  | cons c a ih =>
    have hstep : (escape c).foldl step ⟨args, cur, true, doubleQuote, false⟩ =
        ⟨args, cur ++ [c], true, doubleQuote, false⟩ := by
      unfold escape
      split_ifs with hc
      · simp [step, show backslash ≠ doubleQuote by decide]
      · rw [not_or] at hc
        simp [step, hc]
    rw [flatMap_cons, foldl_append, hstep, ih, append_assoc, singleton_append]

/-- **A quoted argument is collected.** -/
lemma foldl_quote (ch : Char) (a : Arg) :
    ∃ ch', (quote a).foldl step ⟨args, cur, false, ch, false⟩ =
      ⟨args, cur ++ a, false, ch', false⟩ := by
  unfold quote
  split_ifs with ha
  · have hopen : step ⟨args, cur, false, ch, false⟩ doubleQuote =
        ⟨args, cur, true, doubleQuote, false⟩ := by simp [step]
    rw [foldl_cons, hopen, foldl_append, foldl_double]
    simp [step]
  · have hopen : step ⟨args, cur, false, ch, false⟩ singleQuote =
        ⟨args, cur, true, singleQuote, false⟩ := by simp [step]
    rw [foldl_cons, hopen, foldl_append, foldl_single _ _ ha]
    simp [step]

/-- A blank puts down what has been collected, if this is anything. -/
lemma step_blank (ch : Char) :
    step ⟨args, cur, false, ch, false⟩ ' ' =
      ⟨args ++ [cur].filter (· ≠ []), [], false, ch, false⟩ := by
  have hblank : ' ' ≠ doubleQuote ∧ ' ' ≠ singleQuote := by decide
  by_cases hcur : cur = [] <;> simp [step, hblank, hcur]

/-- **What is left of quoted arguments**: those that are not empty. -/
lemma finish_joined (as : List Arg) (ch : Char) :
    ((joined as).foldl step ⟨args, [], false, ch, false⟩).inQuote = false ∧
      ((joined as).foldl step ⟨args, [], false, ch, false⟩).finish =
        args ++ as.filter (· ≠ []) := by
  fun_induction joined as generalizing args ch with
  | case1 => simp [finish]
  | case2 a =>
    obtain ⟨ch', h⟩ := foldl_quote args [] ch a
    rw [h]
    by_cases ha : a = [] <;> simp [finish, ha]
  | case3 a b rest ih =>
    obtain ⟨ch', h⟩ := foldl_quote args [] ch a
    have hfilter : (a :: b :: rest).filter (· ≠ []) =
        [a].filter (· ≠ []) ++ (b :: rest).filter (· ≠ []) := filter_append [a] _
    rw [foldl_append, h, foldl_cons, step_blank, hfilter, ← append_assoc]
    exact ih _ ch'

end ShellState

lemma isSpace_quote (a : Arg) :
    ∃ q body, Text.isSpace q = false ∧ quote a = q :: (body ++ [q]) := by
  unfold quote
  split_ifs
  · exact ⟨doubleQuote, _, rfl, rfl⟩
  · exact ⟨singleQuote, _, rfl, rfl⟩

lemma joined_ne_nil (a : Arg) (rest : List Arg) : joined (a :: rest) ≠ [] := by
  obtain ⟨q, body, -, h⟩ := isSpace_quote a
  cases rest <;> simp [joined, h]

lemma trimSpace_joined (args : List Arg) : Text.trimSpace (joined args) = joined args := by
  apply Text.trimSpace_eq_self
  · fun_cases joined args with
    | case1 => simp
    | case2 a | case3 a =>
      obtain ⟨q, body, hq, h⟩ := isSpace_quote a
      simpa [h] using hq
  · fun_induction joined args with
    | case1 => simp
    | case2 a =>
      obtain ⟨q, body, hq, h⟩ := isSpace_quote a
      rw [h, ← cons_append, getLast?_concat]
      simpa using hq
    | case3 a b rest ih =>
      rwa [getLast?_append_of_ne_nil _ (cons_ne_nil _ _),
        getLast?_cons_of_ne_nil (joined_ne_nil _ _)]

/-- **When splitting inverts quoting**: exactly if no argument is empty. -/
theorem splitShellCommand_quoted_iff {args : List Arg} (hne : args ≠ []) :
    splitShellCommand (joined args) = .ok args ↔ ∀ a ∈ args, a ≠ [] := by
  obtain ⟨hin, hfin⟩ := ShellState.finish_joined [] args (.ofNat 0)
  have hjoined : joined args ≠ [] := by
    obtain ⟨a, rest, rfl⟩ := exists_cons_of_ne_nil hne
    exact joined_ne_nil a rest
  have hfilter : args.filter (· ≠ []) = args ↔ ∀ a ∈ args, a ≠ [] := by
    simp
  rw [nil_append] at hfin
  simp only [splitShellCommand, trimSpace_joined, hjoined, hin, hfin, Bool.false_eq_true,
    if_false, ← hfilter]
  split_ifs with hempty
  · exact ⟨nofun, fun h => absurd (h.symm.trans hempty) hne⟩
  · rw [Except.ok.injEq]

theorem splitShellCommand_two : splitShellCommand (joined [['a', ' '], ['b']]) =
    .ok [['a', ' '], ['b']] :=
  (splitShellCommand_quoted_iff (by decide)).2 (by decide)

/-- The quotes of an empty argument. -/
theorem splitShellCommand_empty : splitShellCommand (joined [['a'], []]) = .ok [['a']] := by
  decide

end Reticulum.Rnsutil
