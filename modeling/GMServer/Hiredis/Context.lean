import GMServer.Hiredis.Command

/-!
# The context of a connection

Commands are collected in an output buffer and replies in a reader.  What the calls of the
socket return is a parameter: the loops of `redisGetReply` are cut in front of these calls.
-/

namespace GMServer
namespace Hiredis

structure redisContext where
  err : Option ErrorType
  errstr : Text
  block : Bool
  obuf : Text
  reader : redisReader

/-- The result of `send`; `again` stands for `EAGAIN`, and the text describes the error. -/
inductive SendResult where
  | written (nwritten : Nat)
  | failed (again : Bool) (text : Text)
  deriving DecidableEq, Repr

/-- The result of `recv`. -/
inductive RecvResult where
  | bytes (buf : Text)
  | closed
  | failed (text : Text)
  deriving DecidableEq, Repr

def closedText : Text := "Server closed the connection".toList

/-- How far `redisGetReply` has come: in front of a call of the socket, or at its end. -/
inductive Progress where
  | writes
  | reads
  | returns (ok : Bool) (reply : Option redisReply)

namespace redisContext

def redisContextInit (block : Bool) : redisContext where
  err := none
  errstr := []
  block := block
  obuf := []
  reader := redisReader.redisReaderCreate

/-- No type stands for 0. -/
def redisSetError (c : redisContext) (type : Option ErrorType) (str : Text) : redisContext :=
  { c with err := type, errstr := str.take 127 }

def redisContextConnectTcp (c : redisContext) : Option (ErrorType × Text) -> redisContext
  | none => c
  | some (type, text) => c.redisSetError (some type) text

def redisConnect (failure : Option (ErrorType × Text)) : redisContext :=
  (redisContextInit true).redisContextConnectTcp failure

def redisConnectNonBlock (failure : Option (ErrorType × Text)) : redisContext :=
  (redisContextInit false).redisContextConnectTcp failure

/-!
# Reading and writing
-/

/-- Without `REDIS_BLOCK` every error is taken for one that passes. -/
def redisBufferRead (c : redisContext) (nread : RecvResult) : Option (redisContext × Bool) :=
  if c.err.isSome then some (c, false)
  else
    match nread with
    | .failed text =>
        if c.block then some (c.redisSetError (some .io) text, false) else some (c, true)
    | .closed => some (c.redisSetError (some .eof) closedText, false)
    | .bytes buf =>
        (c.reader.redisReaderFeed buf).map (fun fed =>
          let next := { c with reader := fed.1 }
          if fed.2 then (next, true)
          else (next.redisSetError fed.1.err fed.1.errstr, false))

/-- The results are whether the call succeeded and whether the buffer is empty. -/
def redisBufferWrite (c : redisContext) (result : SendResult) : redisContext × Bool × Bool :=
  if c.err.isSome then (c, false, false)
  else if c.obuf.length > 0 then
    match result with
    | .failed again text =>
        if again && !c.block then (c, true, false)
        else (c.redisSetError (some .io) text, false, false)
    | .written nwritten =>
        let obuf :=
          if nwritten > 0 then
            if nwritten = c.obuf.length then [] else sdsrange c.obuf nwritten (-1)
          else c.obuf
        ({ c with obuf := obuf }, true, decide (obuf.length = 0))
  else (c, true, true)

def redisGetReplyFromReader (c : redisContext) :
    Option (redisContext × Bool × Option redisReply) :=
  c.reader.redisReaderGetReply.map (fun asked =>
    let next := { c with reader := asked.1 }
    if asked.2.1 then (next, true, asked.2.2)
    else (next.redisSetError asked.1.err asked.1.errstr, false, none))

/-!
# Waiting for a reply
-/

def redisGetReply (c : redisContext) : Option (redisContext × Progress) :=
  c.redisGetReplyFromReader.map (fun asked =>
    if asked.2.1 = false then (asked.1, .returns false none)
    else if asked.2.2.isNone && c.block then (asked.1, .writes)
    else (asked.1, .returns true asked.2.2))

def getReplyWrites (c : redisContext) (result : SendResult) : redisContext × Progress :=
  let written := c.redisBufferWrite result
  if written.2.1 = false then (written.1, .returns false none)
  else if written.2.2 then (written.1, .reads)
  else (written.1, .writes)

def getReplyReads (c : redisContext) (nread : RecvResult) : Option (redisContext × Progress) :=
  (c.redisBufferRead nread).bind (fun read =>
    if read.2 = false then some (read.1, .returns false none)
    else
      read.1.redisGetReplyFromReader.map (fun asked =>
        if asked.2.1 = false then (asked.1, .returns false none)
        else if asked.2.2.isNone then (asked.1, .reads)
        else (asked.1, .returns true asked.2.2)))

/-!
# Commands
-/

/-- No result stands for a format that cannot be read. -/
def redisAppendCommand (c : redisContext) (format : Text) : Option redisContext :=
  (redisFormatCommand format).map (fun cmd => { c with obuf := c.obuf ++ cmd.1 })

/-- Without `REDIS_BLOCK` nothing is read. -/
def redisBlockForReply (c : redisContext) : Option (redisContext × Progress) :=
  if c.block then c.redisGetReply else some (c, .returns true none)

def redisCommand (c : redisContext) (format : Text) : Option (redisContext × Progress) :=
  (c.redisAppendCommand format).bind redisBlockForReply

/-!
# What the calls do
-/

theorem appendCommand_eq (c : redisContext) {format : Text} {argv : List Text}
    (hformat : DataHandle.redisvFormatCommand format = some argv) :
    c.redisAppendCommand format = some { c with obuf := c.obuf ++ commandBytes argv } := by
  unfold redisAppendCommand redisFormatCommand
  rw [hformat, Option.bind_some, redisFormatCommandArgv_eq]
  rfl

theorem bufferWrite_written {c : redisContext} (hsound : c.err = none) (hne : c.obuf ≠ [])
    {nwritten : Nat} (hle : nwritten ≤ c.obuf.length) :
    c.redisBufferWrite (.written nwritten) =
      ({ c with obuf := c.obuf.drop nwritten }, true, decide (c.obuf.drop nwritten = [])) := by
  have hobuf : (if nwritten > 0 then
      if nwritten = c.obuf.length then [] else sdsrange c.obuf nwritten (-1)
      else c.obuf) = c.obuf.drop nwritten := by
    by_cases hzero : nwritten > 0
    · rw [if_pos hzero]
      by_cases hall : nwritten = c.obuf.length
      · rw [if_pos hall, hall, List.drop_length]
      · rw [if_neg hall, sdsrange_drop hle]
    · rw [if_neg hzero, Nat.eq_zero_of_not_pos hzero, List.drop_zero]
  unfold redisBufferWrite
  rw [if_neg (by rw [hsound]; decide), if_pos (List.length_pos_iff.mpr hne)]
  dsimp only
  rw [hobuf]
  simp only [List.length_eq_zero_iff]

theorem getReplyWrites_written {c : redisContext} (hsound : c.err = none) (hne : c.obuf ≠ [])
    {nwritten : Nat} (hle : nwritten ≤ c.obuf.length) :
    c.getReplyWrites (.written nwritten) =
      ({ c with obuf := c.obuf.drop nwritten },
        if c.obuf.drop nwritten = [] then .reads else .writes) := by
  unfold getReplyWrites
  rw [bufferWrite_written hsound hne hle]
  dsimp only
  rw [if_neg (by decide)]
  simp only [decide_eq_true_eq]
  split
  · rfl
  · rfl

theorem getReplyWrites_stopped {c : redisContext} (herr : c.err.isSome) (result : SendResult) :
    c.getReplyWrites result = (c, .returns false none) := by
  unfold getReplyWrites redisBufferWrite
  rw [if_pos herr]
  rfl

theorem bufferWrite_failed {c : redisContext} (hsound : c.err = none) (hne : c.obuf ≠ [])
    (hblock : c.block = true) (again : Bool) (text : Text) :
    c.redisBufferWrite (.failed again text) =
      (c.redisSetError (some .io) text, false, false) := by
  unfold redisBufferWrite
  rw [if_neg (by simp [hsound]), if_pos (List.length_pos_iff.mpr hne)]
  exact if_neg (by simp [hblock])

theorem getReplyWrites_failed {c : redisContext} (hsound : c.err = none) (hne : c.obuf ≠ [])
    (hblock : c.block = true) (again : Bool) (text : Text) :
    c.getReplyWrites (.failed again text) =
      (c.redisSetError (some .io) text, .returns false none) := by
  unfold getReplyWrites
  rw [bufferWrite_failed hsound hne hblock]
  rfl

theorem getReplyReads_failed {c : redisContext} (hsound : c.err = none) (hblock : c.block = true)
    (text : Text) :
    c.getReplyReads (.failed text) =
      some (c.redisSetError (some .io) text, .returns false none) := by
  unfold getReplyReads redisBufferRead
  rw [if_neg (by simp [hsound])]
  dsimp only
  rw [if_pos hblock]
  rfl

theorem getReplyReads_closed {c : redisContext} (hsound : c.err = none) :
    c.getReplyReads .closed =
      some (c.redisSetError (some .eof) closedText, .returns false none) := by
  unfold getReplyReads redisBufferRead
  rw [if_neg (by simp [hsound])]
  rfl

end redisContext
end Hiredis
end GMServer
