import Wlrdp.DecimalTexts

namespace Wlrdp
set_option autoImplicit true

/-! ### The characters of the shell -/

namespace Shell

def blanks : List UInt8 := ascii " \t"
def newline : UInt8 := 10
def doubleQuote : UInt8 := 34
def hash : UInt8 := 35
def singleQuote : UInt8 := 39
def backslash : UInt8 := 92

/-- The bytes that begin an expansion or a substitution, within double quotes too. -/
def expansions : List UInt8 := [36, 96]

def operators : List (List UInt8) :=
  ["&", ";", "<", ">", "(", ")", "|", "&&", "||", ";;", "<<", ">>", "<&", ">&", "<>", ">|",
    "<<-"].map ascii

/-- A byte that ends a word, unless it is quoted. -/
def delimits (b : UInt8) : Bool := b ∈ blanks || b = newline || [b] ∈ operators

/-- A byte that quotes. -/
def quotes (b : UInt8) : Bool := b = backslash || b = singleQuote || b = doubleQuote

/-- A byte that is only itself in a word. -/
def plain (b : UInt8) : Bool := !delimits b && !quotes b && !(b ∈ expansions)

/-! ### Quoting -/

/-- How the next byte of a word is quoted. -/
inductive Quoting
  | bare | escaped | single | double | doubleEscaped
deriving DecidableEq

/-- The quoting behind a byte; `none` if the byte begins an expansion. -/
def Quoting.next (q : Quoting) (b : UInt8) : Option Quoting :=
  match q with
  | .bare =>
    if b ∈ expansions then none
    else if b = backslash then some .escaped
    else if b = singleQuote then some .single
    else if b = doubleQuote then some .double
    else some .bare
  | .escaped => some .bare
  | .single => some (if b = singleQuote then .bare else .single)
  | .double =>
    if b ∈ expansions then none
    else if b = backslash then some .doubleEscaped
    else some (if b = doubleQuote then .bare else .double)
  | .doubleEscaped => some .double

/-- What a byte leaves in the word when the quoting is removed, with whether it was quoted. Within
double quotes a backslash quotes only some bytes. -/
def Quoting.leaves (q : Quoting) (b : UInt8) : List (UInt8 × Bool) :=
  match q with
  | .bare => if quotes b then [] else [(b, false)]
  | .escaped => [(b, true)]
  | .single => if b = singleQuote then [] else [(b, true)]
  | .double => if b = doubleQuote ∨ b = backslash then [] else [(b, true)]
  | .doubleEscaped =>
    if b ∈ expansions ∨ b = doubleQuote ∨ b = backslash then [(b, true)]
    else [(backslash, true), (b, true)]

/-- A word without its quoting. -/
def unquoted (q : Quoting) : List UInt8 → List (UInt8 × Bool)
  | [] => []
  | b :: bs => q.leaves b ++ unquoted ((q.next b).getD .bare) bs

/-- Quote removal. -/
def quoteRemoval (word : List UInt8) : List UInt8 := (unquoted .bare word).map Prod.fst

/-! ### Token recognition -/

inductive Token
  | word (bytes : List UInt8)
  | ioNumber (bytes : List UInt8)
  | operator (bytes : List UInt8)
  | newline
deriving DecidableEq

/-- What the bytes before the next one belong to. `operatorEscaped` is a backslash behind an
operator, which a newline may follow. -/
inductive LexState
  | between
  | comment
  | word (bytes : List UInt8) (quoting : Quoting)
  | operator (bytes : List UInt8)
  | operatorEscaped (bytes : List UInt8)
deriving DecidableEq

/-- A byte that is not quoted, where no token is open. -/
def opened (b : UInt8) : Option (List Token × LexState) :=
  if b ∈ blanks then some ([], .between)
  else if b = newline then some ([.newline], .between)
  else if b = hash then some ([], .comment)
  else if [b] ∈ operators then some ([], .operator [b])
  else (Quoting.bare.next b).map fun q => ([], .word [b] q)

/-- The token of a word in front of a delimiter. -/
def closed (bytes : List UInt8) (b : UInt8) : Token :=
  if bytes.all (fun d => 48 ≤ d && d ≤ 57) ∧ (b ∈ ascii "<>") then .ioNumber bytes else .word bytes

/-- A word whose backslash a newline follows goes on without the two. -/
def continued (bytes : List UInt8) (q : Quoting) : LexState :=
  if bytes = [] then .between else .word bytes q

def LexState.step (st : LexState) (b : UInt8) : Option (List Token × LexState) :=
  match st with
  | .between => opened b
  | .comment => if b = newline then opened b else some ([], .comment)
  | .operator bytes =>
    if bytes ++ [b] ∈ operators then some ([], .operator (bytes ++ [b]))
    else if b = backslash then some ([], .operatorEscaped bytes)
    else (opened b).map fun r => (.operator bytes :: r.1, r.2)
  | .operatorEscaped bytes =>
    if b = newline then some ([], .operator bytes)
    else some ([.operator bytes], .word [backslash, b] .bare)
  | .word bytes q =>
    if q = .bare ∧ delimits b = true then (opened b).map fun r => (closed bytes b :: r.1, r.2)
    else if q = .escaped ∧ b = newline then some ([], continued bytes.dropLast .bare)
    else if q = .doubleEscaped ∧ b = newline then some ([], .word bytes.dropLast .double)
    else (q.next b).map fun q' => ([], .word (bytes ++ [b]) q')

/-- The end of the input; `none` within quoting. -/
def LexState.finish : LexState → Option (List Token)
  | .between | .comment => some []
  | .word bytes .bare => some [.word bytes]
  | .word _ _ => none
  | .operator bytes => some [.operator bytes]
  | .operatorEscaped _ => none

/-- The tokens of an input; `none` if there is an expansion or a quoting without an end. -/
def LexState.run (st : LexState) : List UInt8 → Option (List Token)
  | [] => st.finish
  | b :: bs => (st.step b).bind fun r => (r.2.run bs).map (r.1 ++ ·)

def lex (input : List UInt8) : Option (List Token) := LexState.between.run input

/-! ### Words without quoting -/

variable {bytes rest : List UInt8} {b : UInt8} {q : Quoting} {st : LexState} {ts : List Token}

theorem plain_iff : plain b = true ↔ delimits b = false ∧ quotes b = false ∧ b ∉ expansions := by
  simp only [plain, Bool.and_eq_true, Bool.not_eq_true', decide_eq_false_iff_not, and_assoc]

theorem next_bare (hq : quotes b = false) (he : b ∉ expansions) :
    Quoting.bare.next b = some .bare := by
  simp only [quotes, Bool.or_eq_false_iff, decide_eq_false_iff_not] at hq
  obtain ⟨⟨hback, hsingle⟩, hdouble⟩ := hq
  rw [Quoting.next, if_neg he, if_neg hback, if_neg hsingle, if_neg hdouble]

/-- A plain byte joins the word. -/
theorem word_step (hb : plain b = true) :
    (LexState.word bytes .bare).step b = some ([], .word (bytes ++ [b]) .bare) := by
  obtain ⟨hd, hq, he⟩ := plain_iff.1 hb
  rw [LexState.step, if_neg (fun h => Bool.noConfusion (hd.symm.trans h.2)),
    if_neg (fun h => Quoting.noConfusion h.1), if_neg (fun h => Quoting.noConfusion h.1),
    next_bare hq he]
  rfl

theorem run_plain (hplain : ∀ b ∈ rest, plain b = true) (tail : List UInt8) :
    (LexState.word bytes .bare).run (rest ++ tail) =
      (LexState.word (bytes ++ rest) .bare).run tail := by
  induction rest generalizing bytes with
  | nil => rw [List.nil_append, List.append_nil]
  | cons b rest ih =>
    rw [List.cons_append, LexState.run, word_step (hplain b List.mem_cons_self), Option.bind_some]
    dsimp only
    rw [ih fun b hb => hplain b (List.mem_cons_of_mem _ hb), List.append_assoc]
    exact Option.map_id'

/-- A blank ends the word. -/
theorem run_blank (hb : b ∈ blanks) (tail : List UInt8) :
    (LexState.word bytes .bare).run (b :: tail) = (lex tail).map (.word bytes :: ·) := by
  have hdelimits : delimits b = true := by
    rw [delimits, decide_eq_true hb]
    rfl
  have hnumbers : blanks.all (fun b => !(b ∈ ascii "<>")) = true := by decide
  have hnumber : ¬ (b ∈ ascii "<>") := by
    have hb' := List.all_eq_true.1 hnumbers b hb
    exact of_decide_eq_false ((Bool.not_eq_true' _).mp hb')
  rw [LexState.run, LexState.step, if_pos ⟨rfl, hdelimits⟩, opened, if_pos hb, closed,
    if_neg (fun h => hnumber h.2)]
  rfl

/-- A word of plain bytes that does not begin a comment. -/
structure PlainWord (word : List UInt8) : Prop where
  plain : ∀ b ∈ word, plain b = true
  nonempty : word ≠ []
  noComment : word.head? ≠ some hash

instance (word : List UInt8) : Decidable (PlainWord word) :=
  decidable_of_iff (word.all Shell.plain = true ∧ word ≠ [] ∧ word.head? ≠ some hash)
    ⟨fun h => ⟨List.all_eq_true.1 h.1, h.2.1, h.2.2⟩,
      fun h => ⟨List.all_eq_true.2 h.plain, h.nonempty, h.noComment⟩⟩

theorem lex_word (h : PlainWord bytes) (tail : List UInt8) :
    lex (bytes ++ tail) = (LexState.word bytes .bare).run tail := by
  obtain ⟨hplain, hne, hhash⟩ := h
  cases bytes with
  | nil => exact absurd rfl hne
  | cons b word =>
    obtain ⟨hd, hq, he⟩ := plain_iff.1 (hplain b List.mem_cons_self)
    simp only [delimits, Bool.or_eq_false_iff, decide_eq_false_iff_not] at hd
    obtain ⟨⟨hblank, hnewline⟩, hoperator⟩ := hd
    have hopened : opened b = some ([], .word [b] .bare) := by
      rw [opened, if_neg hblank, if_neg hnewline, if_neg fun h => hhash (congrArg some h),
        if_neg hoperator, next_bare hq he]
      rfl
    rw [List.cons_append, lex, LexState.run, LexState.step, hopened]
    exact Option.map_id'.trans (run_plain (fun c hc => hplain c (List.mem_cons_of_mem _ hc)) tail)

/-- A blank and the next word. -/
theorem run_next (h : PlainWord word) (tail : List UInt8) :
    (LexState.word bytes .bare).run (32 :: (word ++ tail)) =
      ((LexState.word word .bare).run tail).map (.word bytes :: ·) := by
  rw [run_blank (by decide), lex_word h]

/-! ### The length of the tokens -/

/-- The least number of bytes that a token takes with what separates it from the next one. -/
def Token.cost : Token → Nat
  | .word bytes | .ioNumber bytes => bytes.length + 1
  | .operator bytes => bytes.length - 1
  | .newline => 0

def cost (ts : List Token) : Nat := (ts.map Token.cost).sum

/-- What the bytes so far may still cost. -/
def LexState.budget : LexState → Nat
  | .between | .comment => 1
  | .word bytes _ => bytes.length + 1
  | .operator bytes => bytes.length - 1 + 1
  | .operatorEscaped bytes => bytes.length - 1 + 2

theorem opened_cost (h : opened b = some (ts, st)) : cost ts + st.budget ≤ 2 ∧
    (delimits b = true → cost ts + st.budget ≤ 1) := by
  simp only [opened] at h
  split at h
  · cases h
    exact ⟨by decide, fun _ => by decide⟩
  split at h
  · cases h
    exact ⟨by decide, fun _ => by decide⟩
  split at h
  · cases h
    exact ⟨by decide, fun _ => by decide⟩
  split at h
  · cases h
    exact ⟨Nat.le_succ 1, fun _ => Nat.le_refl 1⟩
  · next hblank hnewline _ hoperator =>
    obtain ⟨q, _, hq⟩ := Option.map_eq_some_iff.1 h
    cases hq
    refine ⟨Nat.le_refl 2, fun hd => ?_⟩
    simp only [delimits, Bool.or_eq_true, decide_eq_true_eq] at hd
    exact absurd hd (by simp only [hblank, hnewline, hoperator, or_self, not_false_iff])

theorem closed_cost (bytes : List UInt8) (b : UInt8) : (closed bytes b).cost = bytes.length + 1 := by
  rw [closed]
  split <;> rfl

theorem cost_cons (t : Token) (ts : List Token) : cost (t :: ts) = t.cost + cost ts := rfl

theorem cost_append (ts us : List Token) : cost (ts ++ us) = cost ts + cost us := by
  rw [cost, List.map_append, List.sum_append]
  rfl

/-- A byte pays for what it emits. -/
theorem step_cost (h : st.step b = some (ts, st')) :
    cost ts + st'.budget ≤ st.budget + 1 := by
  have hlast : (bytes : List UInt8) → (bytes ++ [b]).length = bytes.length + 1 :=
    fun bytes => List.length_append
  cases st with
  | between => exact (opened_cost h).1
  | comment =>
    rw [LexState.step] at h
    split at h
    · exact (opened_cost h).1
    · cases h
      exact Nat.le_succ 1
  | operator bytes =>
    rw [LexState.step] at h
    split at h
    · cases h
      simp only [cost, List.map_nil, List.sum_nil, LexState.budget, hlast]
      omega
    split at h
    · cases h
      simp only [cost, List.map_nil, List.sum_nil, LexState.budget]
      omega
    · obtain ⟨r, hr, heq⟩ := Option.map_eq_some_iff.1 h
      cases heq
      have hopened := (opened_cost hr).1
      rw [cost_cons]
      change bytes.length - 1 + cost r.1 + r.2.budget ≤ bytes.length - 1 + 1 + 1
      omega
  | operatorEscaped bytes =>
    rw [LexState.step] at h
    split at h
    · cases h
      simp only [cost, List.map_nil, List.sum_nil, LexState.budget]
      omega
    · cases h
      simp only [cost, List.map_cons, List.map_nil, List.sum_cons, List.sum_nil, LexState.budget,
        Token.cost, List.length_cons, List.length_nil]
      omega
  | word bytes q =>
    rw [LexState.step] at h
    split at h
    · next hd =>
      obtain ⟨r, hr, heq⟩ := Option.map_eq_some_iff.1 h
      cases heq
      have hopened := (opened_cost hr).2 hd.2
      rw [cost_cons, closed_cost]
      change bytes.length + 1 + cost r.1 + r.2.budget ≤ bytes.length + 1 + 1
      omega
    split at h
    · cases h
      rw [continued]
      split <;>
        simp only [cost, List.map_nil, List.sum_nil, LexState.budget, List.length_dropLast] <;>
        omega
    split at h
    · cases h
      simp only [cost, List.map_nil, List.sum_nil, LexState.budget, List.length_dropLast]
      omega
    · obtain ⟨q', _, heq⟩ := Option.map_eq_some_iff.1 h
      cases heq
      simp only [cost, List.map_nil, List.sum_nil, LexState.budget, hlast]
      omega

theorem finish_cost (h : st.finish = some ts) : cost ts ≤ st.budget := by
  cases st with
  | between | comment =>
    cases h
    exact Nat.zero_le 1
  | word bytes q =>
    cases q with
    | bare =>
      cases h
      exact Nat.le_refl _
    | _ => cases h
  | operator bytes =>
    cases h
    exact Nat.le_succ _
  | operatorEscaped => cases h

/-- The tokens of an input take no more bytes than it has. -/
theorem run_cost (h : st.run bytes = some ts) : cost ts ≤ bytes.length + st.budget := by
  induction bytes generalizing st ts with
  | nil => exact Nat.le_trans (finish_cost h) (Nat.le_add_left ..)
  | cons b bytes ih =>
    obtain ⟨⟨ts₁, st'⟩, hstep, hrest⟩ := Option.bind_eq_some_iff.1 h
    obtain ⟨ts₂, hrun, rfl⟩ := Option.map_eq_some_iff.1 hrest
    have hfirst := step_cost hstep
    have hothers := ih hrun
    rw [cost_append, List.length_cons]
    dsimp only at hothers ⊢
    omega

theorem lex_cost (h : lex bytes = some ts) : cost ts ≤ bytes.length + 1 := run_cost h

/-! ### The length of a word without its quoting -/

/-- Two bytes remain only of one that a backslash fails to quote. -/
def Quoting.owed (q : Quoting) : Nat := if q = .doubleEscaped then 1 else 0

theorem next_bare_owed (b : UInt8) : ((Quoting.bare.next b).getD .bare).owed = 0 := by
  simp only [Quoting.next]
  split
  · rfl
  split
  · rfl
  split
  · rfl
  split <;> rfl

theorem leaves_length (q : Quoting) (b : UInt8) :
    (q.leaves b).length + ((q.next b).getD .bare).owed ≤ 1 + q.owed := by
  cases q with
  | bare =>
    rw [next_bare_owed, Quoting.leaves]
    split
    · exact Nat.zero_le _
    · exact Nat.le_refl 1
  | escaped => exact Nat.le_refl 1
  | single =>
    simp only [Quoting.leaves, Quoting.next]
    split
    · exact Nat.zero_le _
    · exact Nat.le_refl 1
  | double =>
    by_cases hback : b = backslash
    · subst hback
      decide
    · have hleaves : (Quoting.double.leaves b).length ≤ 1 := by
        rw [Quoting.leaves]
        split
        · exact Nat.zero_le _
        · exact Nat.le_refl 1
      have hnext : ((Quoting.double.next b).getD .bare).owed = 0 := by
        rw [Quoting.next, if_neg hback]
        split
        · rfl
        · split <;> rfl
      omega
  | doubleEscaped =>
    rw [Quoting.leaves]
    split
    · exact Nat.le_succ 1
    · exact Nat.le_refl 2

theorem unquoted_length_le (q : Quoting) (word : List UInt8) :
    (unquoted q word).length ≤ word.length + q.owed := by
  induction word generalizing q with
  | nil => exact Nat.zero_le _
  | cons b word ih =>
    have hfirst := leaves_length q b
    have hrest := ih ((q.next b).getD .bare)
    rw [unquoted, List.length_append, List.length_cons]
    omega

theorem unquoted_cons (hb : quotes b = false) (word : List UInt8) :
    unquoted .bare (b :: word) = (b, false) :: unquoted .bare word := by
  have hnext : (Quoting.bare.next b).getD .bare = .bare := by
    by_cases he : b ∈ expansions
    · rw [Quoting.next, if_pos he]
      rfl
    · rw [next_bare hb he]
      rfl
  rw [unquoted, Quoting.leaves, hb, hnext]
  rfl

/-- Quote removal leaves a word without quoting alone. -/
theorem unquoted_bare (h : ∀ b ∈ bytes, quotes b = false) :
    unquoted .bare bytes = bytes.map (·, false) := by
  induction bytes with
  | nil => rfl
  | cons b word ih =>
    rw [unquoted_cons (h b List.mem_cons_self), ih fun c hc => h c (List.mem_cons_of_mem _ hc)]
    rfl

theorem quoteRemoval_bare (h : ∀ b ∈ bytes, quotes b = false) : quoteRemoval bytes = bytes := by
  rw [quoteRemoval, unquoted_bare h, List.map_map]
  exact List.map_id' bytes

/-- It makes the others shorter. -/
theorem unquoted_length_lt (hb : b ∈ bytes) (hquotes : quotes b = true) :
    (unquoted .bare bytes).length < bytes.length := by
  induction bytes with
  | nil => cases hb
  | cons c word ih =>
    cases hc : quotes c with
    | true =>
      have hrest := unquoted_length_le ((Quoting.bare.next c).getD .bare) word
      rw [next_bare_owed] at hrest
      rw [unquoted, Quoting.leaves, if_pos hc, List.nil_append, List.length_cons]
      exact Nat.lt_succ_of_le hrest
    | false =>
      rw [unquoted_cons hc]
      rcases List.mem_cons.1 hb with rfl | hb
      · cases hc.symm.trans hquotes
      · exact Nat.succ_lt_succ (ih hb)

theorem quoteRemoval_length_le (word : List UInt8) : (quoteRemoval word).length ≤ word.length := by
  rw [quoteRemoval, List.length_map]
  exact unquoted_length_le .bare word

theorem quoteRemoval_length_lt (hb : b ∈ bytes) (hquotes : quotes b = true) :
    (quoteRemoval bytes).length < bytes.length := by
  rw [quoteRemoval, List.length_map]
  exact unquoted_length_lt hb hquotes

end Shell
end Wlrdp
