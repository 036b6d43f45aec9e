import Mathlib.Data.List.TakeWhile
import Mathlib.Data.List.Nodup

namespace Wlrdp
set_option autoImplicit true

/-! ### Command lines as `getopt_long` reads them -/

namespace Getopt

abbrev Word := List UInt8

def dash : UInt8 := 45
def equals : UInt8 := 61

/-- `struct option` without a flag. -/
structure LongOption where
  name : Word
  takesArg : Bool
  val : UInt8
deriving DecidableEq

/-- The long options, the letters of the short ones with whether they take an argument, and whether
operands end the options. -/
structure OptionTable where
  long : List LongOption
  short : List (UInt8 × Bool)
  posixlyCorrect : Bool

/-- What one call returns: an option with its argument, or the question mark. -/
inductive Found
  | option (val : UInt8) (arg : Option Word)
  | bad
deriving DecidableEq

/-- What a word of the command line is: the end of the options, an operand, options, or options of
which the last takes the next word as its argument. -/
inductive WordKind
  | stop
  | operand
  | found (fs : List Found)
  | pending (fs : List Found) (val : UInt8)
deriving DecidableEq

/-- The option that a long name stands for: the one of that name, or the only one that begins so. -/
def OptionTable.resolve (t : OptionTable) (name : Word) : Option LongOption :=
  match t.long.find? (·.name = name) with
  | some o => some o
  | none =>
    match t.long.filter (name <+: ·.name) with
    | [] => none
    | o :: os => if os.all fun p => p.takesArg = o.takesArg ∧ p.val = o.val then some o else none

/-- A word after its two dashes. -/
def OptionTable.readLong (t : OptionTable) (body : Word) : WordKind :=
  match t.resolve (body.takeWhile (· ≠ equals)), body.dropWhile (· ≠ equals) with
  | none, _ => .found [.bad]
  | some o, [] => if o.takesArg then .pending [] o.val else .found [.option o.val none]
  | some o, _ :: arg => .found [if o.takesArg then .option o.val (some arg) else .bad]

/-- A word after its dash. -/
def OptionTable.readShort (t : OptionTable) : Word → WordKind
  | [] => .found []
  | c :: cs =>
    match t.short.lookup c with
    | some true => if cs = [] then .pending [] c else .found [.option c (some cs)]
    | known =>
      let f := if known = some false then Found.option c none else .bad
      match t.readShort cs with
      | .pending fs val => .pending (f :: fs) val
      | .found fs => .found (f :: fs)
      | r => r

def OptionTable.read (t : OptionTable) : Word → WordKind
  | [] | [_] => .operand
  | c :: d :: body =>
    if c ≠ dash then .operand
    else if d ≠ dash then t.readShort (d :: body)
    else if body = [] then .stop
    else t.readLong body

/-- What the calls of `getopt_long` return until it returns -1. -/
def OptionTable.getopt (t : OptionTable) : List Word → List Found
  | [] => []
  | w :: ws =>
    match t.read w with
    | .stop => []
    | .operand => if t.posixlyCorrect then [] else t.getopt ws
    | .found fs => fs ++ t.getopt ws
    | .pending fs val =>
      match ws with
      | [] => fs ++ [.bad]
      | arg :: rest => fs ++ .option val (some arg) :: t.getopt rest

/-! ### Options with an argument -/

/-- The ways to write an option with its argument. -/
inductive Style
  | separate | equals | short | joined
deriving DecidableEq

/-- An option of a command line: the option, its argument and how it is written. -/
structure Setting where
  option : LongOption
  arg : Word
  style : Style

def Setting.words (s : Setting) : List Word :=
  match s.style with
  | .separate => [dash :: dash :: s.option.name, s.arg]
  | .equals => [dash :: dash :: (s.option.name ++ Getopt.equals :: s.arg)]
  | .short => [[dash, s.option.val], s.arg]
  | .joined => [dash :: s.option.val :: s.arg]

/-- The setting is one of the table, and a joined argument has a byte. -/
structure Setting.Fits (t : OptionTable) (s : Setting) : Prop where
  mem : s.option ∈ t.long
  takesArg : s.option.takesArg = true
  joined : s.style = .joined → s.arg ≠ []

/-- The names differ, are not empty and have no equals sign, and every option with an argument has
its letter. -/
structure OptionTable.WellFormed (t : OptionTable) : Prop where
  names : (t.long.map (·.name)).Nodup
  plain : ∀ o ∈ t.long, o.name ≠ [] ∧ equals ∉ o.name
  letters : ∀ o ∈ t.long, o.takesArg = true → o.val ≠ dash ∧ t.short.lookup o.val = some true

variable {t : OptionTable} {s : Setting}

theorem OptionTable.WellFormed.resolve_name (h : t.WellFormed) (ho : o ∈ t.long) :
    t.resolve o.name = some o := by
  have hfind : t.long.find? (·.name = o.name) = some o := by
    cases hf : t.long.find? (·.name = o.name) with
    | none =>
      have hne := List.find?_eq_none.1 hf o ho
      exact absurd (decide_eq_true rfl) hne
    | some p =>
      have hp := List.find?_some hf
      have hname : p.name = o.name := of_decide_eq_true hp
      rw [List.inj_on_of_nodup_map h.names (List.mem_of_find?_eq_some hf) ho hname]
  rw [OptionTable.resolve, hfind]

theorem takeWhile_plain {name : Word} (h : equals ∉ name) :
    (name ++ equals :: arg).takeWhile (· ≠ equals) = name ∧
      (name ++ equals :: arg).dropWhile (· ≠ equals) = equals :: arg := by
  have hall : ∀ b ∈ name, decide (b ≠ equals) = true := by
    intro b hb
    exact decide_eq_true fun heq => h (heq ▸ hb)
  constructor
  · rw [List.takeWhile_append_of_pos hall]
    exact List.append_nil _
  · rw [List.dropWhile_append_of_pos hall]
    rfl

theorem takeWhile_name {name : Word} (h : equals ∉ name) :
    name.takeWhile (· ≠ equals) = name ∧ name.dropWhile (· ≠ equals) = [] := by
  have hall : ∀ b ∈ name, decide (b ≠ equals) = true := by
    intro b hb
    exact decide_eq_true fun heq => h (heq ▸ hb)
  exact ⟨List.takeWhile_eq_self_iff.2 hall, List.dropWhile_eq_nil_iff.2 hall⟩

/-- What a setting is read as, in front of anything. -/
theorem Setting.Fits.getopt (hs : s.Fits t) (ht : t.WellFormed) (ws : List Word) :
    t.getopt (s.words ++ ws) = .option s.option.val (some s.arg) :: t.getopt ws := by
  obtain ⟨hname, hplain⟩ := ht.plain _ hs.mem
  obtain ⟨hdash, hletter⟩ := ht.letters _ hs.mem hs.takesArg
  have hresolve := ht.resolve_name hs.mem
  cases hstyle : s.style with
  | separate =>
    have hread : t.read (dash :: dash :: s.option.name) = .pending [] s.option.val := by
      rw [OptionTable.read, if_neg (not_not_intro rfl), if_neg (not_not_intro rfl), if_neg hname,
        OptionTable.readLong, (takeWhile_name hplain).1, (takeWhile_name hplain).2, hresolve]
      exact if_pos hs.takesArg
    simp only [Setting.words, hstyle, List.cons_append, List.nil_append, OptionTable.getopt, hread]
  | equals =>
    have hbody : s.option.name ++ Getopt.equals :: s.arg ≠ [] :=
      List.append_ne_nil_of_left_ne_nil hname _
    have hread : t.read (dash :: dash :: (s.option.name ++ Getopt.equals :: s.arg)) =
        .found [.option s.option.val (some s.arg)] := by
      rw [OptionTable.read, if_neg (not_not_intro rfl), if_neg (not_not_intro rfl), if_neg hbody,
        OptionTable.readLong, (takeWhile_plain hplain).1, (takeWhile_plain hplain).2, hresolve]
      dsimp only
      rw [if_pos hs.takesArg]
    simp only [Setting.words, hstyle, List.cons_append, List.nil_append, OptionTable.getopt, hread]
  | short =>
    have hread : t.read [dash, s.option.val] = .pending [] s.option.val := by
      rw [OptionTable.read, if_neg (not_not_intro rfl), if_pos hdash, OptionTable.readShort, hletter]
      exact if_pos rfl
    simp only [Setting.words, hstyle, List.cons_append, List.nil_append, OptionTable.getopt, hread]
  | joined =>
    have hread : t.read (dash :: s.option.val :: s.arg) =
        .found [.option s.option.val (some s.arg)] := by
      rw [OptionTable.read, if_neg (not_not_intro rfl), if_pos hdash, OptionTable.readShort, hletter]
      exact if_neg (hs.joined hstyle)
    simp only [Setting.words, hstyle, List.cons_append, List.nil_append, OptionTable.getopt, hread]

/-- A command line of settings is read as these settings, whatever bytes their arguments have. -/
theorem OptionTable.WellFormed.getopt_settings (ht : t.WellFormed) {ss : List Setting}
    (hs : ∀ s ∈ ss, s.Fits t) :
    t.getopt (ss.flatMap Setting.words) = ss.map fun s => .option s.option.val (some s.arg) := by
  induction ss with
  | nil => rfl
  | cons s ss ih =>
    rw [List.flatMap_cons, (hs s List.mem_cons_self).getopt ht, List.map_cons]
    rw [ih fun p hp => hs p (List.mem_cons_of_mem _ hp)]

end Getopt
end Wlrdp
