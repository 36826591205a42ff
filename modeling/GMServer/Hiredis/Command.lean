import GMServer.DataHandle.RedisCommand
import GMServer.Hiredis.Resp

/-!
# Commands on the wire

The arguments of a command are written behind their lengths.  The length of the whole is
calculated beforehand, and the code asserts that it has been met.
-/

namespace GMServer
namespace Hiredis

open Transition

/-!
# Formatting
-/

/-- One pass for each digit. -/
def digitsFrom : Nat -> Nat -> Nat
  | 0, _ => 0
  | fuel + 1, i => if i / 10 = 0 then 1 else digitsFrom fuel (i / 10) + 1

/-- The number of bytes of an integer as a string. -/
def intlen (i : Int) : Nat :=
  if i < 0 then digitsFrom (i.natAbs + 1) i.natAbs + 1 else digitsFrom (i.natAbs + 1) i.natAbs

def bulklen (len : Nat) : Nat := 1 + intlen len + 2 + len + 2

def bulkBytes (arg : Text) : Text :=
  '$' :: Text.decimal arg.length ++ ['\r', '\n'] ++ arg ++ ['\r', '\n']

/-- What is printed and copied into the command. -/
def commandBytes (argv : List Text) : Text :=
  '*' :: Text.decimal argv.length ++ ['\r', '\n'] ++ argv.flatMap bulkBytes

/-- No result stands for a length that was calculated wrong.  The lengths are `int` in the
source and are not bounded here. -/
def redisFormatCommandArgv (argv : List Text) : Option (Text × Nat) :=
  let totlen := argv.foldl (fun totlen arg => totlen + bulklen arg.length)
    (1 + intlen argv.length + 2)
  let cmd := commandBytes argv
  if cmd.length = totlen then some (cmd, totlen) else none

/-- The arguments are cut out of the format, and the command is built as from a vector. -/
def redisFormatCommand (format : Text) : Option (Text × Nat) :=
  (DataHandle.redisvFormatCommand format).bind redisFormatCommandArgv

/-!
# The calculated length
-/

theorem digitsFrom_decimal {fuel i : Nat} (hfuel : i < fuel) :
    digitsFrom fuel i = (Text.decimal i).length := by
  induction fuel generalizing i with
  | zero => exact absurd hfuel (Nat.not_lt_zero _)
  | succ fuel ih =>
      unfold Text.decimal at ih ⊢
      rw [digitsFrom, Nat.toDigits_eq_if (by decide)]
      by_cases hlast : i / 10 = 0
      · rw [if_pos hlast, if_pos (by omega)]
        rfl
      · rw [if_neg hlast, if_neg (by omega), ih (by omega), List.length_append]
        rfl

theorem intlen_decimal (n : Nat) : intlen n = (Text.decimal n).length := by
  unfold intlen
  rw [if_neg (by omega), Int.natAbs_natCast]
  exact digitsFrom_decimal (Nat.lt_succ_self n)

theorem length_bulkBytes (arg : Text) : (bulkBytes arg).length = bulklen arg.length := by
  unfold bulkBytes bulklen
  rw [intlen_decimal]
  simp only [List.length_append, List.length_cons, List.length_nil]
  omega

theorem foldl_bulklen (argv : List Text) (totlen : Nat) :
    argv.foldl (fun totlen arg => totlen + bulklen arg.length) totlen =
      totlen + (argv.flatMap bulkBytes).length := by
  induction argv generalizing totlen with
  | nil => rfl
  | cons arg argv ih =>
      rw [List.foldl_cons, ih, List.flatMap_cons, List.length_append, length_bulkBytes,
        Nat.add_assoc]

/-- The assertion holds. -/
theorem redisFormatCommandArgv_eq (argv : List Text) :
    redisFormatCommandArgv argv = some (commandBytes argv, (commandBytes argv).length) := by
  have hlength : (commandBytes argv).length =
      argv.foldl (fun totlen arg => totlen + bulklen arg.length) (1 + intlen argv.length + 2) := by
    rw [foldl_bulklen, intlen_decimal]
    unfold commandBytes
    simp only [List.length_append, List.length_cons, List.length_nil]
    omega
  unfold redisFormatCommandArgv
  dsimp only
  rw [if_pos hlength, ← hlength]

/-!
# Where a command ends
-/

theorem header_inj {n k : Nat} {x y : Text}
    (h : Text.decimal n ++ Resp.lineEnd ++ x = Text.decimal k ++ Resp.lineEnd ++ y) :
    n = k ∧ x = y := by
  have hline := congrArg lineOf h
  rw [Resp.lineOf_line (Resp.not_infix_decimal n), Resp.lineOf_line (Resp.not_infix_decimal k)]
    at hline
  rcases Prod.mk.inj (Option.some.inj hline) with ⟨hnumber, hrest⟩
  exact ⟨Text.decimal_injective hnumber, hrest⟩

theorem bulkBytes_append (arg x : Text) :
    bulkBytes arg ++ x =
      '$' :: (Text.decimal arg.length ++ Resp.lineEnd ++ (arg ++ (Resp.lineEnd ++ x))) := by
  simp [bulkBytes, Resp.lineEnd]

theorem commandBytes_append (argv : List Text) (x : Text) :
    commandBytes argv ++ x =
      '*' :: (Text.decimal argv.length ++ Resp.lineEnd ++ (argv.flatMap bulkBytes ++ x)) := by
  simp [commandBytes, Resp.lineEnd]

theorem bulk_inj {arg other x y : Text} (h : bulkBytes arg ++ x = bulkBytes other ++ y) :
    arg = other ∧ x = y := by
  rw [bulkBytes_append, bulkBytes_append] at h
  rcases header_inj (List.cons.inj h).right with ⟨hlength, hrest⟩
  rcases List.append_inj hrest hlength with ⟨hEq, hend⟩
  exact ⟨hEq, List.append_cancel_left hend⟩

theorem bulks_inj {argv others : List Text} (hlength : argv.length = others.length) {x y : Text}
    (h : argv.flatMap bulkBytes ++ x = others.flatMap bulkBytes ++ y) : argv = others ∧ x = y := by
  induction argv generalizing others with
  | nil =>
      rw [List.length_eq_zero_iff.mp hlength.symm] at h ⊢
      exact ⟨rfl, h⟩
  | cons arg argv ih =>
      cases others with
      | nil => cases hlength
      | cons other others =>
          rw [List.flatMap_cons, List.flatMap_cons, List.append_assoc, List.append_assoc] at h
          rcases bulk_inj h with ⟨hfirst, hrest⟩
          rcases ih (Nat.succ.inj hlength) hrest with ⟨hothers, hend⟩
          rw [hfirst, hothers]
          exact ⟨rfl, hend⟩

/-- No command is the beginning of another one. -/
theorem command_inj {argv others : List Text} {x y : Text}
    (h : commandBytes argv ++ x = commandBytes others ++ y) : argv = others ∧ x = y := by
  rw [commandBytes_append, commandBytes_append] at h
  rcases header_inj (List.cons.inj h).right with ⟨hlength, hrest⟩
  exact bulks_inj hlength hrest

theorem commandBytes_ne_nil (argv : List Text) : commandBytes argv ≠ [] := List.cons_ne_nil _ _

/-!
# Reading commands back
-/

/-- A command as a value of the protocol. -/
def ofArgv (argv : List Text) : Resp := .array (argv.map Resp.bulk)

/-- The command with the zero byte behind it has a length that fits into an `int`. -/
def Sendable (argv : List Text) : Prop := (commandBytes argv).length + 1 < 0x80000000

instance (argv : List Text) : Decidable (Sendable argv) := inferInstanceAs (Decidable (_ < _))

theorem length_lt_commandBytes (argv : List Text) :
    argv.length < (commandBytes argv).length ∧
      forall arg, arg ∈ argv -> arg.length < (commandBytes argv).length := by
  have hparts : argv.length ≤ (argv.flatMap bulkBytes).length ∧
      forall arg, arg ∈ argv -> arg.length ≤ (argv.flatMap bulkBytes).length := by
    induction argv with
    | nil => exact ⟨Nat.le_refl 0, fun arg hmem => absurd hmem List.not_mem_nil⟩
    | cons first rest ih =>
        have hbulk : first.length + 1 ≤ (bulkBytes first).length := by
          rw [length_bulkBytes]
          unfold bulklen
          omega
        rw [List.flatMap_cons, List.length_append, List.length_cons]
        constructor
        · omega
        · intro arg hmem
          rcases List.mem_cons.mp hmem with hfirst | hrest
          · rw [hfirst]
            omega
          · have hlater := ih.right arg hrest
            omega
  have hwhole : (argv.flatMap bulkBytes).length < (commandBytes argv).length := by
    unfold commandBytes
    rw [List.length_append]
    exact Nat.lt_add_of_pos_left (List.length_pos_iff.mpr (List.cons_ne_nil _ _))
  exact ⟨Nat.lt_of_le_of_lt hparts.left hwhole,
    fun arg hmem => Nat.lt_of_le_of_lt (hparts.right arg hmem) hwhole⟩

theorem encodeAll_bulks (argv : List Text) :
    Resp.encodeAll (argv.map Resp.bulk) = argv.flatMap bulkBytes := by
  induction argv with
  | nil => rfl
  | cons arg argv ih =>
      rw [List.map_cons, Resp.encodeAll, ih, List.flatMap_cons]
      rfl

theorem encode_ofArgv (argv : List Text) : Resp.encode (ofArgv argv) = commandBytes argv := by
  unfold ofArgv commandBytes
  rw [Resp.encode, encodeAll_bulks, List.length_map]
  rfl

theorem allSized_bulks {argv : List Text}
    (hsizes : forall arg, arg ∈ argv -> arg.length < 0x80000000) :
    Resp.AllSized (argv.map Resp.bulk) := by
  induction argv with
  | nil => trivial
  | cons arg argv ih =>
      exact ⟨hsizes arg List.mem_cons_self,
        ih (fun other hother => hsizes other (List.mem_cons_of_mem arg hother))⟩

theorem nestingAll_bulks (argv : List Text) : Resp.nestingAll (argv.map Resp.bulk) = 0 := by
  induction argv with
  | nil => rfl
  | cons arg argv ih =>
      rw [List.map_cons, Resp.nestingAll, ih]
      rfl

theorem nesting_ofArgv (argv : List Text) : Resp.nesting (ofArgv argv) = 1 := by
  unfold ofArgv
  rw [Resp.nesting, nestingAll_bulks]

theorem Sendable.sized {argv : List Text} (h : Sendable argv) : Resp.Sized (ofArgv argv) := by
  have hfits : (commandBytes argv).length < 0x80000000 := Nat.lt_of_succ_lt h
  rcases length_lt_commandBytes argv with ⟨hcount, hsizes⟩
  unfold ofArgv
  rw [Resp.Sized, List.length_map]
  exact ⟨Nat.lt_trans hcount hfits,
    allSized_bulks (fun arg hmem => Nat.lt_trans (hsizes arg hmem) hfits)⟩

theorem replies_bulks (argv : List Text) :
    Resp.replies (argv.map Resp.bulk) = argv.map redisReply.string := by
  induction argv with
  | nil => rfl
  | cons arg argv ih =>
      rw [List.map_cons, Resp.replies, ih]
      rfl

/-- The array of its arguments that a command is read as. -/
def argumentArray (argv : List Text) : redisReply :=
  .array argv.length (argv.map (fun arg => some (.string arg)))

theorem reply_ofArgv (argv : List Text) : Resp.reply (ofArgv argv) = argumentArray argv := by
  unfold ofArgv argumentArray
  rw [Resp.reply, replies_bulks, List.length_map, List.map_map]
  rfl

theorem encodeAll_commands (argvs : List (List Text)) :
    Resp.encodeAll (argvs.map ofArgv) = argvs.flatMap commandBytes ∧
      Resp.replies (argvs.map ofArgv) = argvs.map argumentArray := by
  induction argvs with
  | nil => exact ⟨rfl, rfl⟩
  | cons argv argvs ih =>
      rw [List.map_cons, Resp.encodeAll, Resp.replies, ih.left, ih.right, encode_ofArgv,
        reply_ofArgv]
      exact ⟨rfl, rfl⟩

theorem allSized_commands {argvs : List (List Text)}
    (h : forall argv, argv ∈ argvs -> Sendable argv) :
    Resp.AllSized (argvs.map ofArgv) ∧ Resp.nestingAll (argvs.map ofArgv) ≤ 2 := by
  induction argvs with
  | nil => exact ⟨trivial, Nat.zero_le 2⟩
  | cons argv argvs ih =>
      have hrest := ih (fun other hother => h other (List.mem_cons_of_mem argv hother))
      refine ⟨⟨(h argv List.mem_cons_self).sized, hrest.left⟩, ?_⟩
      have hle := hrest.right
      rw [List.map_cons, Resp.nestingAll, nesting_ofArgv]
      omega

open ReaderState

/-- The commands as they are written one behind the other. -/
def pipelined (argvs : List (List Text)) : Option Text :=
  (argvs.mapM redisFormatCommandArgv).map (fun cmds => cmds.flatMap Prod.fst)

theorem mapM_formatted (argvs : List (List Text)) :
    argvs.mapM redisFormatCommandArgv =
      some (argvs.map (fun argv => (commandBytes argv, (commandBytes argv).length))) := by
  induction argvs with
  | nil => rfl
  | cons argv argvs ih =>
      rw [List.mapM_cons, redisFormatCommandArgv_eq, ih]
      rfl

theorem pipelined_eq (argvs : List (List Text)) :
    pipelined argvs = some (argvs.flatMap commandBytes) := by
  unfold pipelined
  rw [mapM_formatted, Option.map_some, List.flatMap_map]

/-- Commands written one behind the other are read back, in whatever pieces they travel. -/
theorem commands_read_back {argvs : List (List Text)} {actions : List ReaderAction}
    {s : ReaderState} (hsendable : forall argv, argv ∈ argvs -> Sendable argv)
    (hfed : pipelined argvs = some (fed actions)) (hrun : Run step init actions = some s) :
    s.returned <+: argvs.map argumentArray ∧ s.failure = none ∧
      (s.waiting = true -> s.returned = argvs.map argumentArray) := by
  rcases encodeAll_commands argvs with ⟨hencode, hreplies⟩
  rcases allSized_commands hsendable with ⟨hsized, hnesting⟩
  have hbytes : fed actions = Resp.encodeAll (argvs.map ofArgv) ++ [] := by
    rw [hencode, List.append_nil]
    exact (Option.some.inj ((pipelined_eq argvs).symm.trans hfed)).symm
  have hreturned := Resp.stream_returned hsized hnesting rfl rfl hbytes hrun
  rw [hreplies] at hreturned
  exact hreturned

/-- Two commands; the second one has an argument with a line end in it. -/
def twoCommands : List (List Text) := [[['G', 'E', 'T'], ['k']], [['\r', '\n'], []]]

def inTwoPieces : List ReaderAction :=
  [.feed ((twoCommands.flatMap commandBytes).take 9), .getReply,
    .feed ((twoCommands.flatMap commandBytes).drop 9), .getReply, .getReply, .getReply]

theorem two_commands_sendable : forall argv, argv ∈ twoCommands -> Sendable argv := by
  decide

theorem two_commands_read_back :
    exists s, Run step init inTwoPieces = some s ∧
      s.returned = twoCommands.map argumentArray :=
  ⟨_, rfl,
    (@commands_read_back twoCommands inTwoPieces _ two_commands_sendable rfl rfl).right.right
      rfl⟩

end Hiredis
end GMServer
