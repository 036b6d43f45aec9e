import Mathlib.Algebra.Order.BigOperators.Group.List
import Wlrdp.ShellLexing

namespace Wlrdp
set_option autoImplicit true

namespace Shell

/-! ### Simple commands -/

structure Redirection where
  number : Option (List UInt8)
  operator : List UInt8
  target : List UInt8
deriving DecidableEq

structure SimpleCommand where
  assignments : List (List UInt8 × List UInt8)
  words : List (List UInt8)
  redirections : List Redirection
deriving DecidableEq

/-- The redirection operators without those of here-documents. -/
def redirecting : List (List UInt8) := ["<", ">", ">>", "<&", ">&", "<>", ">|"].map ascii

def reservedWords : List (List UInt8) :=
  [[33], [123], [125]] ++ ["case", "do", "done", "elif", "else", "esac", "fi", "for", "if", "in",
    "then", "until", "while"].map ascii

def equalsSign : UInt8 := 61

/-- A byte of a name; a digit does not begin one. -/
def inName (b : UInt8) : Bool := b = 95 || 97 ≤ b && b ≤ 122 || 65 ≤ b && b ≤ 90 || 48 ≤ b && b ≤ 57

def isName (bytes : List UInt8) : Bool :=
  bytes.all inName && bytes.head?.any fun b => !(48 ≤ b && b ≤ 57)

/-- The name and the value of a word that is an assignment. -/
def assignment (bytes : List UInt8) : Option (List UInt8 × List UInt8) :=
  let name := bytes.takeWhile (· ≠ equalsSign)
  if isName name && equalsSign ∈ bytes then some (name, bytes.drop (name.length + 1)) else none

/-- What the grammar expects next. -/
inductive Awaiting
  | nothing
  | operator (number : List UInt8)
  | target (number : Option (List UInt8)) (operator : List UInt8)
deriving DecidableEq

structure Parse where
  command : SimpleCommand
  awaiting : Awaiting
deriving DecidableEq

def Parse.start : Parse := ⟨⟨[], [], []⟩, .nothing⟩

/-- A word is an assignment only in front of the command's name. -/
def SimpleCommand.addWord (c : SimpleCommand) (bytes : List UInt8) : Option SimpleCommand :=
  if c.words ≠ [] then some { c with words := c.words ++ [bytes] }
  else match assignment bytes with
    | some a => some { c with assignments := c.assignments ++ [a] }
    | none =>
      if c = ⟨[], [], []⟩ ∧ reservedWords.contains bytes then none
      else some { c with words := [bytes] }

def Parse.step (p : Parse) (t : Token) : Option Parse :=
  match p.awaiting, t with
  | .nothing, .word bytes => (p.command.addWord bytes).map (⟨·, .nothing⟩)
  | .nothing, .ioNumber bytes => some ⟨p.command, .operator bytes⟩
  | .nothing, .operator bytes =>
    if redirecting.contains bytes then some ⟨p.command, .target none bytes⟩ else none
  | .operator number, .operator bytes =>
    if redirecting.contains bytes then some ⟨p.command, .target (some number) bytes⟩ else none
  | .target number op, .word bytes =>
    some ⟨{ p.command with redirections := p.command.redirections ++ [⟨number, op, bytes⟩] },
      .nothing⟩
  | _, _ => none

def Parse.run (p : Parse) : List Token → Option Parse
  | [] => some p
  | t :: ts => (p.step t).bind fun p => p.run ts

/-- The tokens as one simple command; `none` if they are anything else. -/
def parse (ts : List Token) : Option SimpleCommand :=
  (Parse.start.run ts).bind fun p => if p.awaiting = .nothing then some p.command else none

/-! ### What a command means -/

def colon : UInt8 := 58
def tilde : UInt8 := 126

/-- An unquoted tilde stands where one is expanded: at the beginning, if `begins`, or behind an
unquoted colon. -/
def tildeExpands (begins : Bool) : List (UInt8 × Bool) → Bool
  | [] => false
  | m :: ms => begins && m = (tilde, false) || tildeExpands (m = (colon, false)) ms

def valueExpands (value : List UInt8) : Bool := tildeExpands true (unquoted .bare value)

def tildeBegins (word : List UInt8) : Bool := (unquoted .bare word).head? = some (tilde, false)

/-- A tilde or a pattern. -/
def wordExpands (word : List UInt8) : Bool :=
  tildeBegins word || (unquoted .bare word).any fun m => m.1 ∈ ascii "*?[" && !m.2

def SimpleCommand.expands (c : SimpleCommand) : Bool :=
  c.assignments.any (fun a => valueExpands a.2) || c.words.any wordExpands ||
    c.redirections.any fun r => tildeBegins r.target

def SimpleCommand.values (c : SimpleCommand) : SimpleCommand where
  assignments := c.assignments.map fun a => (a.1, quoteRemoval a.2)
  words := c.words.map quoteRemoval
  redirections := c.redirections.map fun r => { r with target := quoteRemoval r.target }

/-- What the shell runs for an input; `none` if that is not one simple command, or if anything in
it is expanded. -/
def read (input : List UInt8) : Option SimpleCommand :=
  (lex input).bind fun ts => (parse ts).bind fun c => if c.expands then none else some c.values

/-- A byte that is only itself, wherever it stands in a word: it does not quote, and is neither a
tilde nor of a pattern. -/
def literal (b : UInt8) : Bool := !quotes b && b ≠ tilde && !(b ∈ ascii "*?[")

/-- A word that is only itself. -/
def Literal (word : List UInt8) : Prop := ∀ b ∈ word, literal b = true

instance (word : List UInt8) : Decidable (Literal word) :=
  decidable_of_iff (word.all literal = true) List.all_eq_true

/-- A command of which nothing is quoted or expanded. -/
structure SimpleCommand.IsLiteral (c : SimpleCommand) : Prop where
  assignments : ∀ a ∈ c.assignments, (∀ b ∈ a.2, quotes b = false) ∧
    tildeExpands true (a.2.map (·, false)) = false
  words : ∀ w ∈ c.words, Literal w
  redirections : ∀ r ∈ c.redirections, Literal r.target

theorem literal_iff : literal b = true ↔ quotes b = false ∧ b ≠ tilde ∧ b ∉ ascii "*?[" := by
  simp only [literal, Bool.and_eq_true, Bool.not_eq_true', decide_eq_true_eq,
    decide_eq_false_iff_not, and_assoc]

theorem Literal.quotes (h : Literal word) : ∀ b ∈ word, quotes b = false :=
  fun b hb => (literal_iff.1 (h b hb)).1

theorem Literal.tildeBegins (h : Literal word) : tildeBegins word = false := by
  rw [Shell.tildeBegins, unquoted_bare h.quotes, List.head?_map, decide_eq_false_iff_not]
  intro hhead
  obtain ⟨b, hb, heq⟩ := Option.map_eq_some_iff.1 hhead
  cases heq
  exact (literal_iff.1 (h tilde (List.mem_of_mem_head? hb))).2.1 rfl

theorem Literal.wordExpands (h : Literal word) : wordExpands word = false := by
  rw [Shell.wordExpands, h.tildeBegins, Bool.false_or, unquoted_bare h.quotes, List.any_map,
    List.any_eq_false]
  intro b hb hpattern
  exact (literal_iff.1 (h b hb)).2.2 (of_decide_eq_true (Bool.and_eq_true_iff.1 hpattern).1)

namespace SimpleCommand.IsLiteral

variable {c : SimpleCommand}

theorem expands (h : c.IsLiteral) : c.expands = false := by
  rw [SimpleCommand.expands, Bool.or_eq_false_iff, Bool.or_eq_false_iff]
  refine ⟨⟨?_, ?_⟩, ?_⟩
  · rw [List.any_eq_false]
    intro a ha hvalue
    obtain ⟨hquotes, htilde⟩ := h.assignments a ha
    rw [valueExpands, unquoted_bare hquotes, htilde] at hvalue
    cases hvalue
  · rw [List.any_eq_false]
    exact fun w hw hword => Bool.noConfusion ((h.words w hw).wordExpands.symm.trans hword)
  · rw [List.any_eq_false]
    exact fun r hr htarget =>
      Bool.noConfusion ((h.redirections r hr).tildeBegins.symm.trans htarget)

theorem values (h : c.IsLiteral) : c.values = c := by
  have hassignments : c.assignments.map (fun a => (a.1, quoteRemoval a.2)) = c.assignments :=
    (List.map_congr_left fun a ha => by rw [quoteRemoval_bare (h.assignments a ha).1]).trans
      (List.map_id' _)
  have hwords : c.words.map quoteRemoval = c.words :=
    (List.map_congr_left fun w hw => quoteRemoval_bare (h.words w hw).quotes).trans (List.map_id' _)
  have hredirections : (c.redirections.map fun r => { r with target := quoteRemoval r.target }) =
      c.redirections :=
    (List.map_congr_left fun r hr => by rw [quoteRemoval_bare (h.redirections r hr).quotes]).trans
      (List.map_id' _)
  rw [SimpleCommand.values, hassignments, hwords, hredirections]

end SimpleCommand.IsLiteral

/-! ### The length of a command -/

def Redirection.cost (r : Redirection) : Nat :=
  (r.number.elim 0 fun n => n.length + 1) + (r.operator.length - 1) + (r.target.length + 1)

def SimpleCommand.cost (c : SimpleCommand) : Nat :=
  (c.assignments.map fun a => a.1.length + a.2.length + 2).sum +
    (c.words.map fun w => w.length + 1).sum + (c.redirections.map Redirection.cost).sum

def Awaiting.cost : Awaiting → Nat
  | .nothing => 0
  | .operator number => number.length + 1
  | .target number op => (number.elim 0 fun n => n.length + 1) + (op.length - 1)

variable {c c' : SimpleCommand} {p p' : Parse} {t : Token} {ts : List Token}

theorem takeWhile_append_drop [DecidableEq α] {x : α} {l : List α} (h : x ∈ l) :
    l.takeWhile (· ≠ x) ++ x :: l.drop ((l.takeWhile (· ≠ x)).length + 1) = l := by
  induction l with
  | nil => cases h
  | cons y l ih =>
    by_cases hy : y = x
    · rw [List.takeWhile_cons_of_neg (by simpa using hy), hy]
      rfl
    · rw [List.takeWhile_cons_of_pos (by simpa using hy), List.length_cons, List.drop_succ_cons,
        List.cons_append, ih ((List.mem_cons.1 h).resolve_left (Ne.symm hy))]

theorem assignment_eq (h : assignment bytes = some a) : a.1 ++ equalsSign :: a.2 = bytes := by
  simp only [assignment] at h
  split at h
  · next hname =>
    cases h
    exact takeWhile_append_drop (of_decide_eq_true (Bool.and_eq_true_iff.1 hname).2)
  · cases h

theorem cost_words (c : SimpleCommand) (bytes : List UInt8) :
    SimpleCommand.cost { c with words := c.words ++ [bytes] } = c.cost + (bytes.length + 1) := by
  simp only [SimpleCommand.cost, List.map_append, List.map_cons, List.map_nil, List.sum_append,
    List.sum_cons, List.sum_nil]
  omega

theorem addWord_cost (h : c.addWord bytes = some c') : c'.cost = c.cost + (bytes.length + 1) := by
  rw [SimpleCommand.addWord] at h
  split at h
  · cases h
    exact cost_words c bytes
  · next hwords =>
    split at h
    · next a ha =>
      cases h
      have hlength := congrArg List.length (assignment_eq ha)
      rw [List.length_append, List.length_cons] at hlength
      simp only [SimpleCommand.cost, List.map_append, List.map_cons, List.map_nil,
        List.sum_append, List.sum_cons, List.sum_nil]
      omega
    · split at h
      · cases h
      · cases h
        have hfirst := cost_words c bytes
        rw [Decidable.not_not.1 hwords] at hfirst
        exact hfirst

theorem parse_step_cost (h : p.step t = some p') :
    p'.command.cost + p'.awaiting.cost = p.command.cost + p.awaiting.cost + t.cost := by
  obtain ⟨c, awaiting⟩ := p
  cases awaiting with
  | nothing =>
    cases t with
    | word bytes =>
      obtain ⟨c', hc, heq⟩ := Option.map_eq_some_iff.1 h
      cases heq
      exact addWord_cost hc
    | ioNumber bytes =>
      cases h
      rfl
    | operator bytes =>
      simp only [Parse.step] at h
      split at h
      · cases h
        simp only [Awaiting.cost, Token.cost, Option.elim_none, Nat.zero_add, Nat.add_zero]
      · cases h
    | newline => cases h
  | operator number =>
    cases t with
    | operator bytes =>
      simp only [Parse.step] at h
      split at h
      · cases h
        simp only [Awaiting.cost, Token.cost, Option.elim_some, Nat.add_assoc]
      · cases h
    | _ => cases h
  | target number op =>
    cases t with
    | word bytes =>
      cases h
      simp only [SimpleCommand.cost, List.map_append, List.map_cons, List.map_nil,
        List.sum_append, List.sum_cons, List.sum_nil, Redirection.cost, Awaiting.cost, Token.cost]
      omega
    | _ => cases h

theorem parse_run_cost (h : p.run ts = some p') :
    p'.command.cost + p'.awaiting.cost = p.command.cost + p.awaiting.cost + cost ts := by
  induction ts generalizing p with
  | nil =>
    cases h
    rfl
  | cons t ts ih =>
    obtain ⟨p₁, hstep, hrun⟩ := Option.bind_eq_some_iff.1 h
    rw [ih hrun, parse_step_cost hstep, cost_cons]
    omega

theorem parse_run (h : parse ts = some c) : ∃ p, Parse.start.run ts = some p ∧ p.command = c ∧
    p.awaiting = .nothing := by
  obtain ⟨p, hrun, hp⟩ := Option.bind_eq_some_iff.1 h
  split at hp
  · next hawaiting => exact ⟨p, hrun, Option.some.inj hp, hawaiting⟩
  · cases hp

/-- The tokens of a command cost what it does. -/
theorem parse_cost (h : parse ts = some c) : c.cost = cost ts := by
  obtain ⟨p, hrun, rfl, hawaiting⟩ := parse_run h
  have hcost := parse_run_cost hrun
  rw [hawaiting] at hcost
  exact hcost.trans (Nat.zero_add _)

theorem sum_map_le {f g : α → Nat} (l : List α) (h : ∀ x, f x ≤ g x) :
    (l.map f).sum ≤ (l.map g).sum := List.sum_le_sum fun x _ => h x

/-- Quote removal makes a command with a quoted value shorter. -/
theorem values_cost_lt (ha : a ∈ c.assignments) (hb : b ∈ a.2) (hquotes : quotes b = true) :
    c.values.cost < c.cost := by
  simp only [SimpleCommand.values, SimpleCommand.cost, List.map_map]
  refine Nat.add_lt_add_of_lt_of_le (Nat.add_lt_add_of_lt_of_le ?_ (sum_map_le _ fun w => ?_))
    (sum_map_le _ fun r => ?_)
  · apply List.sum_lt_sum
    · intro a _
      exact Nat.add_le_add_right (Nat.add_le_add_left (quoteRemoval_length_le a.2) _) 2
    · exact ⟨a, ha, Nat.add_lt_add_right
        (Nat.add_lt_add_left (quoteRemoval_length_lt hb hquotes) _) 2⟩
  · exact Nat.add_le_add_right (quoteRemoval_length_le w) 1
  · exact Nat.add_le_add_left (Nat.add_le_add_right (quoteRemoval_length_le r.target) 1) _

/-- An input that is no longer than what it means has no quoted value. -/
theorem read_unquoted (h : read input = some c) (hlen : input.length + 1 ≤ c.cost) :
    ∃ ts c', lex input = some ts ∧ parse ts = some c' ∧ c'.expands = false ∧ c'.values = c ∧
      ∀ a ∈ c'.assignments, ∀ b ∈ a.2, quotes b = false := by
  obtain ⟨ts, hlex, hparse⟩ := Option.bind_eq_some_iff.1 h
  obtain ⟨c', hc', hvalues⟩ := Option.bind_eq_some_iff.1 hparse
  split at hvalues
  · cases hvalues
  · next hexpands =>
    cases hvalues
    refine ⟨ts, c', hlex, hc', Bool.eq_false_iff.2 hexpands, rfl, fun a ha b hb => ?_⟩
    rw [← Bool.not_eq_true]
    intro hquotes
    have hshort := values_cost_lt ha hb hquotes
    have hcost := lex_cost hlex
    rw [← parse_cost hc'] at hcost
    omega

/-! ### The first word of a command -/

theorem addWord_assignments (h : c.addWord bytes = some c') :
    c.assignments <+: c'.assignments := by
  rw [SimpleCommand.addWord] at h
  split at h
  · cases h
    exact List.prefix_rfl
  · split at h
    · cases h
      exact List.prefix_append ..
    · split at h
      · cases h
      · cases h
        exact List.prefix_rfl

theorem parse_step_assignments (h : p.step t = some p') :
    p.command.assignments <+: p'.command.assignments := by
  obtain ⟨c, awaiting⟩ := p
  cases awaiting with
  | nothing =>
    cases t with
    | word bytes =>
      obtain ⟨c', hc, heq⟩ := Option.map_eq_some_iff.1 h
      cases heq
      exact addWord_assignments hc
    | ioNumber bytes =>
      cases h
      exact List.prefix_rfl
    | operator bytes =>
      simp only [Parse.step] at h
      split at h
      · cases h
        exact List.prefix_rfl
      · cases h
    | newline => cases h
  | operator number =>
    cases t with
    | operator bytes =>
      simp only [Parse.step] at h
      split at h
      · cases h
        exact List.prefix_rfl
      · cases h
    | _ => cases h
  | target number op =>
    cases t with
    | word bytes =>
      cases h
      exact List.prefix_rfl
    | _ => cases h

theorem parse_run_assignments (h : p.run ts = some p') :
    p.command.assignments <+: p'.command.assignments := by
  induction ts generalizing p with
  | nil =>
    cases h
    exact List.prefix_rfl
  | cons t ts ih =>
    obtain ⟨p₁, hstep, hrun⟩ := Option.bind_eq_some_iff.1 h
    exact (parse_step_assignments hstep).trans (ih hrun)

/-- A command that begins with an assignment has that one first. -/
theorem parse_assignment (h : parse (.word bytes :: ts) = some c)
    (ha : assignment bytes = some a) : [a] <+: c.assignments := by
  obtain ⟨p, hrun, rfl, _⟩ := parse_run h
  obtain ⟨p₁, hstep, hrest⟩ := Option.bind_eq_some_iff.1 hrun
  have hadded : SimpleCommand.addWord ⟨[], [], []⟩ bytes = some ⟨[a], [], []⟩ := by
    rw [SimpleCommand.addWord, if_neg (fun h => h rfl), ha]
    rfl
  have hfirst : (SimpleCommand.addWord ⟨[], [], []⟩ bytes).map (Parse.mk · .nothing) = some p₁ :=
    hstep
  rw [hadded] at hfirst
  cases hfirst
  exact parse_run_assignments hrest

/-! ### Words without quoting -/

theorem step_word (h : c.addWord bytes = some c') :
    (Parse.mk c .nothing).step (.word bytes) = some ⟨c', .nothing⟩ :=
  congrArg (Option.map (Parse.mk · .nothing)) h

/-- Behind the name of the command every word is an argument. -/
theorem run_words (hc : c.words ≠ []) (words : List (List UInt8)) (ts : List Token) :
    (Parse.mk c .nothing).run (words.map Token.word ++ ts) =
      (Parse.mk { c with words := c.words ++ words } .nothing).run ts := by
  induction words generalizing c with
  | nil => rw [List.map_nil, List.nil_append, List.append_nil]
  | cons word words ih =>
    have hadded : c.addWord word = some { c with words := c.words ++ [word] } := by
      rw [SimpleCommand.addWord, if_pos hc]
    have hrest := ih (c := { c with words := c.words ++ [word] })
      (List.append_ne_nil_of_left_ne_nil hc _)
    rw [List.append_assoc, List.singleton_append] at hrest
    rw [List.map_cons, List.cons_append, Parse.run, step_word hadded]
    exact hrest

/-- An assignment, a command with its arguments, and a redirection. -/
theorem parse_words (ha : assignment assigned = some a) (hprogram : assignment program = none)
    (words : List (List UInt8)) (hop : redirecting.contains op = true) :
    parse (.word assigned :: .word program :: (words.map Token.word ++
      [.ioNumber number, .operator op, .word target])) =
        some ⟨[a], program :: words, [⟨some number, op, target⟩]⟩ := by
  have hfirst : SimpleCommand.addWord ⟨[], [], []⟩ assigned = some ⟨[a], [], []⟩ := by
    rw [SimpleCommand.addWord, if_neg fun h => h rfl, ha]
    rfl
  have hsecond : SimpleCommand.addWord ⟨[a], [], []⟩ program = some ⟨[a], [program], []⟩ := by
    rw [SimpleCommand.addWord, if_neg fun h => h rfl, hprogram]
    exact if_neg fun h => nomatch h.1
  rw [parse, Parse.start, Parse.run, step_word hfirst, Option.bind_some, Parse.run,
    step_word hsecond, Option.bind_some, run_words (List.cons_ne_nil _ _)]
  have hnumber (c : SimpleCommand) :
      (Parse.mk c .nothing).step (.ioNumber number) = some ⟨c, .operator number⟩ := rfl
  have hoperator (c : SimpleCommand) : (Parse.mk c (.operator number)).step (.operator op) =
      some ⟨c, .target (some number) op⟩ := if_pos hop
  rw [Parse.run, hnumber, Option.bind_some, Parse.run, hoperator]
  rfl

/-! ### Assignments without quoting -/

theorem assignment_append {name : List UInt8} (hname : isName name = true) (value : List UInt8) :
    assignment (name ++ equalsSign :: value) = some (name, value) := by
  have hall : ∀ b ∈ name, b ≠ equalsSign := by
    intro b hb heq
    have hin := List.all_eq_true.1 (Bool.and_eq_true_iff.1 hname).1 b hb
    rw [heq] at hin
    revert hin
    decide
  have htake : (name ++ equalsSign :: value).takeWhile (· ≠ equalsSign) = name := by
    rw [List.takeWhile_append_of_pos fun b hb => decide_eq_true (hall b hb),
      List.takeWhile_cons_of_neg (by decide), List.append_nil]
  have hmem : equalsSign ∈ name ++ equalsSign :: value :=
    List.mem_append_right _ List.mem_cons_self
  have hdrop : (name ++ equalsSign :: value).drop (name.length + 1) = value := by
    rw [← List.singleton_append, ← List.append_assoc]
    exact List.drop_left' List.length_append
  rw [assignment, htake, hname, decide_eq_true hmem, hdrop]
  rfl

/-- Bytes without quoting are plain, or the word ends in front of one of them. -/
theorem run_unquoted (h : (LexState.word bytes .bare).run (value ++ tail) = some ts)
    (hquotes : ∀ b ∈ value, quotes b = false) : (∀ b ∈ value, plain b = true) ∨
      ∃ front b ts', front.length < value.length ∧ ts = closed (bytes ++ front) b :: ts' := by
  induction value generalizing bytes with
  | nil => exact .inl nofun
  | cons b value ih =>
    have hb := hquotes b List.mem_cons_self
    rw [List.cons_append, LexState.run] at h
    by_cases hplain : plain b = true
    · rw [word_step hplain] at h
      obtain ⟨ts₁, hrun, heq⟩ := Option.map_eq_some_iff.1 h
      cases heq
      rcases ih hrun fun c hc => hquotes c (List.mem_cons_of_mem _ hc) with hrest | hends
      · exact .inl (List.forall_mem_cons.2 ⟨hplain, hrest⟩)
      · obtain ⟨front, d, ts', hlen, rfl⟩ := hends
        refine .inr ⟨b :: front, d, ts', Nat.succ_lt_succ hlen, ?_⟩
        rw [List.append_assoc]
        rfl
    · obtain ⟨r, hstep, hrest⟩ := Option.bind_eq_some_iff.1 h
      obtain ⟨ts₁, _, rfl⟩ := Option.map_eq_some_iff.1 hrest
      rw [LexState.step] at hstep
      split at hstep
      · obtain ⟨r', _, rfl⟩ := Option.map_eq_some_iff.1 hstep
        exact .inr ⟨[], b, r'.1 ++ ts₁, Nat.zero_lt_succ _, by rw [List.append_nil]; rfl⟩
      · next hopen =>
        have hdelimits : delimits b = false := Bool.eq_false_iff.2 fun hd => hopen ⟨rfl, hd⟩
        have hexpansion : b ∈ expansions := by
          by_contra hnot
          exact hplain (plain_iff.2 ⟨hdelimits, hb, hnot⟩)
        rw [if_neg (fun h => Quoting.noConfusion h.1), if_neg (fun h => Quoting.noConfusion h.1),
          Quoting.next, if_pos hexpansion] at hstep
        cases hstep

theorem closed_assignment (bytes value : List UInt8) (b : UInt8) :
    closed (bytes ++ equalsSign :: value) b = .word (bytes ++ equalsSign :: value) := by
  rw [closed, if_neg]
  intro h
  have hdigit := List.all_eq_true.1 h.1 equalsSign (List.mem_append_right _ List.mem_cons_self)
  revert hdigit
  decide

/-- A value that the command has as a whole has no byte that ends it or begins an expansion. -/
theorem value_plain {name : List UInt8} (hname : isName name = true)
    (hlex : (LexState.word (name ++ [equalsSign]) .bare).run (value ++ tail) = some ts)
    (hparse : parse ts = some c) (hc : c.assignments = [(name, value)])
    (hquotes : ∀ b ∈ value, quotes b = false) : ∀ b ∈ value, plain b = true := by
  rcases run_unquoted hlex hquotes with hplain | hends
  · exact hplain
  · obtain ⟨front, b, ts', hlen, rfl⟩ := hends
    rw [List.append_assoc, List.singleton_append, closed_assignment] at hparse
    have hfirst := parse_assignment hparse (assignment_append hname front)
    rw [hc] at hfirst
    cases (List.cons_prefix_cons.1 hfirst).1
    exact absurd hlen (Nat.lt_irrefl _)

end Shell
end Wlrdp
