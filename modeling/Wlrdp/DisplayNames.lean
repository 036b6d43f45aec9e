import Wlrdp.RegistrySemantics
import Wlrdp.ShellCommands
import Wlrdp.WorkerSemantics

namespace Wlrdp
set_option autoImplicit true

open Shell (SimpleCommand PlainWord)

/-! ### The display name -/

/-- `sizeof(comp->display_name)`. -/
def displayNameSize : Nat := 64

/-- `read_display_name` for a file with that content. A zero in it ends the name. -/
def readDisplayName (content : List UInt8) (outSize : Nat) : Option CString :=
  let out := content.take (outSize - 1)
  if out = [] then none
  else
    let out := out.rdropWhile fun b => b = 10 || b = 13
    if out = [] then none
    else some ⟨out.takeWhile (· ≠ 0), fun _ hb => by simpa using List.mem_takeWhile_imp hb⟩

/-! ### The command -/

/-- `sizeof(cmd)` in `on_peer_resize`. -/
def cmdSize : Nat := 512

/-- `(double)scale / 100.0` as `%g`. -/
def formatScale (scale : UInt32) : List UInt8 :=
  let d := nearestDouble scale.toNat 100
  formatG d.1 (2 ^ d.2)

/-- What `on_peer_resize` formats, with the rounded lengths. -/
def resizeText (displayName : CString) (width height scale : UInt32) : List UInt8 :=
  ascii "WAYLAND_DISPLAY=" ++ displayName.bytes ++
    ascii " wlr-randr --output HEADLESS-1 --custom-mode " ++ formatD width ++ ascii "x" ++
    formatD height ++ ascii " --scale " ++ formatScale scale ++ ascii " 2>/dev/null"

/-- What `on_peer_resize` passes to `system`. -/
def resizeCommand (displayName : CString) (width height scale : UInt32) : List UInt8 :=
  (resizeText displayName (roundUp16 width) (roundUp16 height) scale).take (cmdSize - 1)

/-- What the command is meant to be. -/
def resizeMeaning (displayName : CString) (width height scale : UInt32) : SimpleCommand where
  assignments := [(ascii "WAYLAND_DISPLAY", displayName.bytes)]
  words := [ascii "wlr-randr", ascii "--output", ascii "HEADLESS-1", ascii "--custom-mode",
    formatD width ++ ascii "x" ++ formatD height, ascii "--scale", formatScale scale]
  redirections := [⟨some (ascii "2"), ascii ">", ascii "/dev/null"⟩]

/-- The command is not truncated, and the shell runs it as it is meant. -/
structure RunsAsMeant (displayName : CString) (width height scale : UInt32) : Prop where
  whole : (resizeText displayName (roundUp16 width) (roundUp16 height) scale).length < cmdSize
  meaning : Shell.read (resizeCommand displayName width height scale) =
    some (resizeMeaning displayName (roundUp16 width) (roundUp16 height) scale)

/-- No byte of the name delimits a word, quotes or begins an expansion, and no tilde stands at its
beginning or behind a colon. -/
def inert (name : List UInt8) : Bool :=
  name.all Shell.plain && !Shell.tildeExpands true (name.map (·, false))

/-! ### Lengths -/

variable {name : CString} {width height scale : UInt32}

theorem readDisplayName_length (h : readDisplayName content outSize = some name) :
    name.length ≤ outSize - 1 := by
  simp only [readDisplayName] at h
  split at h
  · cases h
  split at h
  · cases h
  · cases h
    calc (((content.take (outSize - 1)).rdropWhile fun b => b = 10 || b = 13).takeWhile
          (· ≠ 0)).length
      _ ≤ ((content.take (outSize - 1)).rdropWhile fun b => b = 10 || b = 13).length :=
        (List.takeWhile_prefix _).length_le
      _ ≤ (content.take (outSize - 1)).length := (List.rdropWhile_prefix ..).length_le
      _ ≤ outSize - 1 := List.length_take_le ..

theorem formatScale_length (scale : UInt32) : (formatScale scale).length ≤ 20 :=
  formatG_length (nearestDouble_hundredths_lt scale.toNat_lt)

theorem resizeText_length (displayName : CString) (width height scale : UInt32) :
    (resizeText displayName width height scale).length = displayName.length +
      (formatD width).length + (formatD height).length + (formatScale scale).length + 83 := by
  have hassigned : (ascii "WAYLAND_DISPLAY=").length = 16 := by decide
  have hmode : (ascii " wlr-randr --output HEADLESS-1 --custom-mode ").length = 45 := by decide
  have hx : (ascii "x").length = 1 := by decide
  have hscale : (ascii " --scale ").length = 9 := by decide
  have herrors : (ascii " 2>/dev/null").length = 12 := by decide
  simp only [resizeText, List.length_append, hassigned, hmode, hx, hscale, herrors, CString.length]
  omega

/-- A command of one assignment, one redirection and seven words. -/
theorem cost_eq (name value number op target : List UInt8) (a b c d e f g : List UInt8) :
    SimpleCommand.cost ⟨[(name, value)], [a, b, c, d, e, f, g], [⟨some number, op, target⟩]⟩ =
      name.length + value.length + number.length + (op.length - 1) + target.length + a.length +
        b.length + c.length + d.length + e.length + f.length + g.length + 11 := by
  simp only [SimpleCommand.cost, Shell.Redirection.cost, List.map_cons, List.map_nil,
    List.sum_cons, List.sum_nil, Option.elim_some]
  omega

/-- The meaning takes all the bytes of the text. -/
theorem resizeMeaning_cost (displayName : CString) (width height scale : UInt32) :
    (resizeMeaning displayName width height scale).cost =
      (resizeText displayName width height scale).length + 1 := by
  have hname : (ascii "WAYLAND_DISPLAY").length = 15 := by decide
  have hprogram : (ascii "wlr-randr").length = 9 := by decide
  have houtput : (ascii "--output").length = 8 := by decide
  have hheadless : (ascii "HEADLESS-1").length = 10 := by decide
  have hmode : (ascii "--custom-mode").length = 13 := by decide
  have hx : (ascii "x").length = 1 := by decide
  have hscale : (ascii "--scale").length = 7 := by decide
  have hnumber : (ascii "2").length = 1 := by decide
  have hoperator : (ascii ">").length = 1 := by decide
  have htarget : (ascii "/dev/null").length = 9 := by decide
  rw [resizeText_length, resizeMeaning, cost_eq, List.length_append, List.length_append, hname,
    hprogram, houtput, hheadless, hmode, hx, hscale, hnumber, hoperator, htarget, CString.length]
  omega

theorem resizeText_lt (h : readDisplayName content displayNameSize = some name)
    (width height scale : UInt32) : (resizeText name width height scale).length < cmdSize := by
  have hname := readDisplayName_length h
  have hwidth := formatD_length width
  have hheight := formatD_length height
  have hscale := formatScale_length scale
  rw [resizeText_length]
  simp only [displayNameSize, cmdSize] at hname ⊢
  omega

/-! ### A name that changes the command -/

theorem wayland_word : PlainWord (ascii "WAYLAND_DISPLAY" ++ [Shell.equalsSign]) := by decide

theorem append_words (assigned name a b c d mode e scale f rest : List UInt8) (blank : UInt8) :
    assigned ++ name ++ blank :: (a ++ blank :: (b ++ blank :: (c ++ blank :: (d ++ [blank])))) ++
        mode ++ blank :: (e ++ [blank]) ++ scale ++ blank :: (f ++ rest) =
      assigned ++ (name ++ blank :: (a ++ blank :: (b ++ blank :: (c ++ blank :: (d ++
        blank :: (mode ++ blank :: (e ++ blank :: (scale ++ blank :: (f ++ rest))))))))) := by
  simp only [List.cons_append, List.append_assoc, List.nil_append]

/-- The text as words, each in front of a blank. -/
theorem resizeText_eq (displayName : CString) (width height scale : UInt32) :
    resizeText displayName width height scale =
      ascii "WAYLAND_DISPLAY" ++ [Shell.equalsSign] ++ (displayName.bytes ++
        32 :: (ascii "wlr-randr" ++ 32 :: (ascii "--output" ++ 32 :: (ascii "HEADLESS-1" ++
          32 :: (ascii "--custom-mode" ++
            32 :: ((formatD width ++ ascii "x" ++ formatD height) ++
              32 :: (ascii "--scale" ++ 32 :: (formatScale scale ++
                32 :: (ascii "2" ++ ascii ">/dev/null"))))))))) := by
  have hassigned : ascii "WAYLAND_DISPLAY=" = ascii "WAYLAND_DISPLAY" ++ [Shell.equalsSign] := by
    decide
  have hoptions : ascii " wlr-randr --output HEADLESS-1 --custom-mode " =
      32 :: (ascii "wlr-randr" ++ 32 :: (ascii "--output" ++ 32 :: (ascii "HEADLESS-1" ++
        32 :: (ascii "--custom-mode" ++ [32])))) := by decide
  have hscaled : ascii " --scale " = 32 :: (ascii "--scale" ++ [32]) := by decide
  have herrors : ascii " 2>/dev/null" = 32 :: (ascii "2" ++ ascii ">/dev/null") := by decide
  rw [resizeText, hassigned, hoptions, hscaled, herrors]
  rw [List.append_assoc _ (formatD width), List.append_assoc _ _ (formatD height)]
  exact append_words ..

theorem inert_of_read (h : Shell.read (resizeText name width height scale) =
    some (resizeMeaning name width height scale)) : inert name.bytes = true := by
  obtain ⟨ts, c, hlex, hparse, hexpands, hvalues, hquotes⟩ :=
    Shell.read_unquoted h (Nat.le_of_eq (resizeMeaning_cost ..).symm)
  have hassignments : c.assignments.map (fun a => (a.1, Shell.quoteRemoval a.2)) =
    [(ascii "WAYLAND_DISPLAY", name.bytes)] := congrArg SimpleCommand.assignments hvalues
  obtain ⟨a, hc, ha⟩ := List.map_eq_singleton_iff.1 hassignments
  have hbare := hquotes a (hc ▸ List.mem_singleton_self a)
  rw [Shell.quoteRemoval_bare hbare] at ha
  obtain rfl : a = (ascii "WAYLAND_DISPLAY", name.bytes) := ha
  rw [resizeText_eq, Shell.lex_word wayland_word] at hlex
  have hplain := Shell.value_plain (by decide) hlex hparse hc hbare
  have hvalue : Shell.valueExpands name.bytes = false := by
    rw [SimpleCommand.expands, hc, Bool.or_assoc, Bool.or_eq_false_iff] at hexpands
    exact (Bool.or_false _).symm.trans hexpands.1
  rw [Shell.valueExpands, Shell.unquoted_bare hbare] at hvalue
  rw [inert, hvalue, List.all_eq_true.2 hplain]
  rfl

/-! ### A name that does not -/

/-- The bytes of the lengths and of the scale. -/
def argumentBytes : List UInt8 := numericBytes ++ ascii "x"

theorem argumentBytes_plain (h : b ∈ argumentBytes) :
    Shell.plain b = true ∧ b ≠ Shell.hash ∧ Shell.literal b = true := by
  have hall : argumentBytes.all (fun b => Shell.plain b && b ≠ Shell.hash && Shell.literal b) =
      true := by decide
  have hb := List.all_eq_true.1 hall b h
  simp only [Bool.and_eq_true, decide_eq_true_eq, and_assoc] at hb
  exact hb

theorem plainWord_of_argument (h : ∀ b ∈ word, b ∈ argumentBytes) (hne : word ≠ []) :
    PlainWord word := by
  refine ⟨fun b hb => (argumentBytes_plain (h b hb)).1, hne, fun hhash => ?_⟩
  exact (argumentBytes_plain (h _ (List.mem_of_mem_head? hhash))).2.1 rfl

theorem Numeric.argument (h : Numeric word) : ∀ b ∈ word, b ∈ argumentBytes :=
  fun b hb => List.mem_append_left _ (h.bytes b hb)

theorem mode_argument (width height : UInt32) :
    ∀ b ∈ formatD width ++ ascii "x" ++ formatD height, b ∈ argumentBytes := by
  intro b hb
  rcases List.mem_append.1 hb with hb | hb
  · rcases List.mem_append.1 hb with hb | hb
    · exact (formatD_numeric width).argument b hb
    · exact List.mem_append_right _ hb
  · exact (formatD_numeric height).argument b hb

theorem lex_resizeText (h : ∀ b ∈ name.bytes, Shell.plain b = true) :
    Shell.lex (resizeText name width height scale) =
      some [.word (ascii "WAYLAND_DISPLAY" ++ Shell.equalsSign :: name.bytes),
        .word (ascii "wlr-randr"), .word (ascii "--output"), .word (ascii "HEADLESS-1"),
        .word (ascii "--custom-mode"), .word (formatD width ++ ascii "x" ++ formatD height),
        .word (ascii "--scale"), .word (formatScale scale), .ioNumber (ascii "2"),
        .operator (ascii ">"), .word (ascii "/dev/null")] := by
  have hmode := plainWord_of_argument (mode_argument width height)
    (List.append_ne_nil_of_right_ne_nil _ (formatD_numeric height).nonempty)
  have hscale : PlainWord (formatScale scale) :=
    plainWord_of_argument (formatG_numeric ..).argument (formatG_numeric ..).nonempty
  have hend : (Shell.LexState.word (ascii "2") .bare).run (ascii ">/dev/null") =
      some [.ioNumber (ascii "2"), .operator (ascii ">"), .word (ascii "/dev/null")] := by decide
  have hprogram : PlainWord (ascii "wlr-randr") := by decide
  rw [resizeText_eq, Shell.lex_word wayland_word, Shell.run_plain h, Shell.run_next hprogram,
    Shell.run_next (by decide), Shell.run_next (by decide), Shell.run_next (by decide),
    Shell.run_next hmode, Shell.run_next (by decide), Shell.run_next hscale,
    Shell.run_next (by decide), hend]
  simp only [Option.map_some, List.append_assoc, List.singleton_append]

theorem literal_of_argument (h : ∀ b ∈ word, b ∈ argumentBytes) : Shell.Literal word :=
  fun b hb => (argumentBytes_plain (h b hb)).2.2

/-- An inert name makes the command a literal one. -/
theorem resizeMeaning_literal (h : inert name.bytes = true) (width height scale : UInt32) :
    (resizeMeaning name width height scale).IsLiteral := by
  obtain ⟨hplain, htilde⟩ := Bool.and_eq_true_iff.1 h
  refine ⟨fun a ha => ?_, fun w hw => ?_, fun r hr => ?_⟩
  · cases List.mem_singleton.1 ha
    exact ⟨fun b hb => (Shell.plain_iff.1 (List.all_eq_true.1 hplain b hb)).2.1,
      Bool.not_eq_true' _ ▸ htilde⟩
  · revert w
    rw [resizeMeaning]
    simp only [List.forall_mem_cons]
    exact ⟨by decide, by decide, by decide, by decide,
      literal_of_argument (mode_argument width height), by decide,
      literal_of_argument (formatG_numeric ..).argument, nofun⟩
  · cases List.mem_singleton.1 hr
    decide

theorem parse_resize (name : CString) (width height scale : UInt32) :
    Shell.parse [.word (ascii "WAYLAND_DISPLAY" ++ Shell.equalsSign :: name.bytes),
      .word (ascii "wlr-randr"), .word (ascii "--output"), .word (ascii "HEADLESS-1"),
      .word (ascii "--custom-mode"), .word (formatD width ++ ascii "x" ++ formatD height),
      .word (ascii "--scale"), .word (formatScale scale), .ioNumber (ascii "2"),
      .operator (ascii ">"), .word (ascii "/dev/null")] =
        some (resizeMeaning name width height scale) :=
  Shell.parse_words (Shell.assignment_append (by decide) name.bytes) (by decide)
    [ascii "--output", ascii "HEADLESS-1", ascii "--custom-mode",
      formatD width ++ ascii "x" ++ formatD height, ascii "--scale", formatScale scale] (by decide)

theorem read_of_inert (h : inert name.bytes = true) :
    Shell.read (resizeText name width height scale) =
      some (resizeMeaning name width height scale) := by
  have hplain := List.all_eq_true.1 (Bool.and_eq_true_iff.1 h).1
  have hliteral := resizeMeaning_literal h width height scale
  rw [Shell.read, lex_resizeText hplain, Option.bind_some, parse_resize, Option.bind_some,
    hliteral.expands, hliteral.values]
  rfl

/-! ### Every name -/

/-- The shell runs the command as it is meant exactly if the name is inert. -/
theorem resize_command_iff (h : readDisplayName content displayNameSize = some name)
    (width height scale : UInt32) :
    RunsAsMeant name width height scale ↔ inert name.bytes = true := by
  have hwhole := resizeText_lt h (roundUp16 width) (roundUp16 height) scale
  have hcommand : resizeCommand name width height scale =
      resizeText name (roundUp16 width) (roundUp16 height) scale :=
    List.take_of_length_le (Nat.le_pred_of_lt hwhole)
  constructor
  · intro hruns
    have hmeaning := hruns.meaning
    rw [hcommand] at hmeaning
    exact inert_of_read hmeaning
  · intro hinert
    refine ⟨hwhole, ?_⟩
    rw [hcommand]
    exact read_of_inert hinert

theorem noNul_of_all {bytes : List UInt8} (h : bytes.all (· ≠ 0) = true) : ∀ b ∈ bytes, b ≠ 0 :=
  fun b hb => of_decide_eq_true (List.all_eq_true.1 h b hb)

/-- A name as cage picks it. -/
def socketName : CString := ⟨ascii "wayland-0", noNul_of_all (by decide)⟩

theorem resize_command_iff_socket :
    readDisplayName (ascii "wayland-0\n") displayNameSize = some socketName ∧
      RunsAsMeant socketName 1920 1080 150 := by
  have hread : readDisplayName (ascii "wayland-0\n") displayNameSize = some socketName := by decide
  exact ⟨hread, (resize_command_iff hread 1920 1080 150).2 (by decide)⟩

/-- A name that another user of the host can give a socket. -/
def craftedName : CString := ⟨ascii "../../../tmp/a;reboot", noNul_of_all (by decide)⟩

/-- The shell assigns its front and runs the rest as a command of its own. -/
theorem crafted_name_runs :
    readDisplayName (ascii "../../../tmp/a;reboot\n") displayNameSize = some craftedName ∧
      Shell.lex (resizeCommand craftedName 1920 1080 150) =
        some [.word (ascii "WAYLAND_DISPLAY=../../../tmp/a"), .operator (ascii ";"),
          .word (ascii "reboot"), .word (ascii "wlr-randr"), .word (ascii "--output"),
          .word (ascii "HEADLESS-1"), .word (ascii "--custom-mode"), .word (ascii "1920x1088"),
          .word (ascii "--scale"), .word (ascii "1.5"), .ioNumber (ascii "2"),
          .operator (ascii ">"), .word (ascii "/dev/null")] ∧
      ¬ RunsAsMeant craftedName 1920 1080 150 := by
  have hlex : Shell.lex (resizeCommand craftedName 1920 1080 150) =
      some [.word (ascii "WAYLAND_DISPLAY=../../../tmp/a"), .operator (ascii ";"),
        .word (ascii "reboot"), .word (ascii "wlr-randr"), .word (ascii "--output"),
        .word (ascii "HEADLESS-1"), .word (ascii "--custom-mode"), .word (ascii "1920x1088"),
        .word (ascii "--scale"), .word (ascii "1.5"), .ioNumber (ascii "2"),
        .operator (ascii ">"), .word (ascii "/dev/null")] := by decide +kernel
  have hread : Shell.read (resizeCommand craftedName 1920 1080 150) = none := by
    rw [Shell.read, hlex]
    decide +kernel
  exact ⟨by decide, hlex, fun h => nomatch hread.symm.trans h.meaning⟩

end Wlrdp
