import GMServer.Library.Loop
import GMServer.Library.Text

/-!
# The reader of replies

`redisReader` collects the bytes that a connection delivers and builds replies from
them.  A stack of three tasks says how far it has come.  No result stands for a failing
assertion and for an access outside of the stack, of the buffer or of an array.
Allocations succeed.
-/

namespace GMServer
namespace Hiredis

open Loops

/-!
# Objects
-/

inductive ReplyType where
  | string
  | array
  | integer
  | nil
  | status
  | error
  deriving DecidableEq, Repr

inductive ErrorType where
  | io
  | other
  | eof
  | protocol
  | oom
  deriving DecidableEq, Repr

/-- The number of elements is the `int` that the array was created with; a null pointer
among the elements is `none`. -/
inductive redisReply where
  | string (str : Text)
  | array (elements : Int) (element : List (Option redisReply))
  | integer (value : Int)
  | nil
  | status (str : Text)
  | error (str : Text)
  deriving Repr

/-- `obj` points into the reply under construction and is the path from its root;
`parent` points into the stack.  The type is `none` where the source has -1. -/
structure redisReadTask where
  type : Option ReplyType
  elements : Int
  idx : Int
  obj : Option (List Nat)
  parent : Option Nat
  deriving DecidableEq, Repr

structure redisReader where
  err : Option ErrorType
  errstr : Text
  buf : Option Text
  pos : Nat
  len : Nat
  rstack : List redisReadTask
  ridx : Int
  reply : Option redisReply

/-- `parent->element[idx] = obj`, where the parent is found along its path. -/
def writeElement (obj : redisReply) (idx : Nat) : List Nat -> redisReply -> Option redisReply
  | [], .array elements element =>
      if idx < element.length then some (.array elements (element.set idx (some obj))) else none
  | i :: path, .array elements element =>
      match element[i]? with
      | some (some child) =>
          (writeElement obj idx path child).map (fun written =>
            .array elements (element.set i (some written)))
      | _ => none
  | _, _ => none

namespace redisReader

/-- What the functions for the single types do once the object is there. -/
def createObject (r : redisReader) (task : redisReadTask) (obj : redisReply) :
    Option redisReader :=
  match task.parent with
  | none => some r
  | some parent =>
      match (r.rstack[parent]?).bind redisReadTask.obj, r.reply with
      | some path, some reply =>
          if task.idx < 0 then none
          else
            (writeElement obj task.idx.toNat path reply).map (fun written =>
              { r with reply := some written })
      | _, _ => none

/-- Where an object that belongs to a task stands in the reply. -/
def pathOf (r : redisReader) (task : redisReadTask) : Option (List Nat) :=
  match task.parent with
  | none => some []
  | some parent =>
      ((r.rstack[parent]?).bind redisReadTask.obj).map (fun path => path ++ [task.idx.toNat])

/-!
# Errors
-/

def redisReaderSetError (r : redisReader) (type : ErrorType) (str : Text) : redisReader :=
  { r with
    reply := none, buf := none,
    pos := if r.buf.isSome then 0 else r.pos,
    len := if r.buf.isSome then 0 else r.len,
    ridx := -1, err := some type, errstr := str.take 127 }

def isprint (byte : Char) : Bool := 0x20 ≤ byte.toNat && byte.toNat ≤ 0x7e

def hexByte (byte : Char) : Text :=
  [Nat.digitChar (byte.toNat / 16 % 16), Nat.digitChar (byte.toNat % 16)]

def chrtos (byte : Char) : Text :=
  let shown : Text :=
    if byte = '\x5c' || byte = '\x22' then ['\x5c', byte]
    else if byte = '\n' then ['\x5c', 'n']
    else if byte = '\r' then ['\x5c', 'r']
    else if byte = '\t' then ['\x5c', 't']
    else if byte = '\x07' then ['\x5c', 'a']
    else if byte = '\x08' then ['\x5c', 'b']
    else if isprint byte then [byte]
    else ['\x5c', 'x'] ++ hexByte byte
  ['\x22'] ++ shown ++ ['\x22']

def protocolByteText (byte : Char) : Text :=
  "Protocol error, got ".toList ++ chrtos byte ++ " as reply type byte".toList

def nestedText : Text :=
  "No support for nested multi bulk replies with depth > 1".toList

def redisReaderSetErrorProtocolByte (r : redisReader) (byte : Char) : redisReader :=
  r.redisReaderSetError .protocol (protocolByteText byte)

/-!
# Lines and numbers
-/

/-- What the buffer holds from the cursor on. -/
def unread (r : redisReader) : Option Text := r.buf.map (fun buf => (buf.take r.len).drop r.pos)

end redisReader

/-- The position of the first line end.  Behind the last byte stands a NUL, so a carriage
return at the end is none. -/
def seekNewline : Text -> Option Nat
  | [] => none
  | [_] => none
  | c :: d :: rest =>
      if c = '\r' ∧ d = '\n' then some 0 else (seekNewline (d :: rest)).map (· + 1)

abbrev longlong := BitVec 64

/-- No result stands for reading on behind the text. -/
def readDigits (mult v : longlong) : Text -> Option longlong
  | [] => none
  | c :: s =>
      if c = '\r' then some (mult * v)
      else if c.isDigit then readDigits mult (v * 10 + BitVec.ofNat 64 (c.toNat - 48)) s
      else some (-1)

def readLongLong : Text -> Option longlong
  | '-' :: s => readDigits (-1) 0 s
  | '+' :: s => readDigits 1 0 s
  | s => readDigits 1 0 s

/-- A `long` of the platform has 32 bits. -/
def toLong (value : longlong) : Int := (value.setWidth 32).toInt

/-- `sdsrange`, with the copying of bytes as `take` and `drop`. -/
def sdsrange (s : Text) (start stop : Int) : Text :=
  if s.length = 0 then s
  else
    let start := if start < 0 then max (s.length + start) 0 else start
    let stop := if stop < 0 then max (s.length + stop) 0 else stop
    let newlen := if start > stop then 0 else stop - start + 1
    if newlen = 0 then []
    else if start ≥ s.length then []
    else if stop ≥ s.length then
      if start > s.length - 1 then [] else s.drop start.toNat
    else (s.drop start.toNat).take newlen.toNat

namespace redisReader

def readLine (r : redisReader) : Option (Option (Text × Nat × redisReader)) :=
  r.unread.map (fun p =>
    (seekNewline p).map (fun len => (p, len, { r with pos := r.pos + len + 2 })))

/-!
# Tasks
-/

/-- The loop of `moveToNextTask`, by the index of the current task. -/
def moveFrom (r : redisReader) : Nat -> Option redisReader
  | 0 => some { r with ridx := -1 }
  | k + 1 =>
      match r.rstack[k + 1]?, r.rstack[k]? with
      | some cur, some prv =>
          if prv.type ≠ some .array then none
          else if cur.idx = prv.elements - 1 then moveFrom r k
          else if cur.idx < prv.elements then
            some
              { r with
                ridx := k + 1,
                rstack := r.rstack.set (k + 1)
                  { cur with type := none, elements := -1, idx := cur.idx + 1 } }
          else none
      | _, _ => none

def moveToNextTask (r : redisReader) : Option redisReader :=
  if r.ridx < 0 then some r else moveFrom r r.ridx.toNat

def setRoot (r : redisReader) (obj : redisReply) : redisReader :=
  if r.ridx = 0 then { r with reply := some obj } else r

def curTask (r : redisReader) : Option redisReadTask := r.rstack[r.ridx.toNat]?

/-- The object that is made of a line of so many bytes. -/
def lineObject (type : Option ReplyType) (p : Text) (len : Nat) : Option redisReply :=
  match type with
  | some .integer => (readLongLong p).map (fun value => .integer value.toInt)
  | some .status => some (.status (p.take len))
  | some .error => some (.error (p.take len))
  | _ => none

/-- The result says whether the item is complete. -/
def processLineItem (r : redisReader) : Option (redisReader × Bool) :=
  match r.curTask, r.readLine with
  | some _, some none => some (r, false)
  | some cur, some (some (p, len, next)) =>
      (lineObject cur.type p len).bind (fun obj =>
        (next.createObject cur obj).bind (fun made =>
          ((made.setRoot obj).moveToNextTask).map (fun moved => (moved, true))))
  | _, _ => none

def proceedBulk (r : redisReader) (cur : redisReadTask) (obj : redisReply) (bytelen : Nat) :
    Option (redisReader × Bool) :=
  (r.createObject cur obj).bind (fun made =>
    ((({ made with pos := made.pos + bytelen }).setRoot obj).moveToNextTask).map
      (fun moved => (moved, true)))

def processBulkItem (r : redisReader) : Option (redisReader × Bool) :=
  match r.curTask, r.unread with
  | some cur, some p =>
      match seekNewline p with
      | none => some (r, false)
      | some s =>
          (readLongLong p).bind (fun value =>
            let len := toLong value
            let bytelen := s + 2
            if len < 0 then r.proceedBulk cur .nil bytelen
            else
              let bytelen := bytelen + (len.toNat + 2)
              if r.pos + bytelen ≤ r.len then
                r.proceedBulk cur (.string ((p.drop (s + 2)).take len.toNat)) bytelen
              else some (r, false))
  | _, _ => none

def pushTask (r : redisReader) (cur : redisReadTask) (elements : Int) (obj : List Nat) :
    Option redisReader :=
  let index := r.ridx.toNat
  if index + 1 < r.rstack.length then
    some
      { r with
        ridx := r.ridx + 1,
        rstack := (r.rstack.set index { cur with elements := elements, obj := some obj }).set
          (index + 1)
          { type := none, elements := -1, idx := 0, obj := none, parent := some index } }
  else none

def finishMultiBulk (root : Bool) (obj : redisReply) (moved : redisReader) :
    redisReader × Bool :=
  (if root then { moved with reply := some obj } else moved, true)

def processMultiBulkItem (r : redisReader) : Option (redisReader × Bool) :=
  if r.ridx = 2 then some (r.redisReaderSetError .protocol nestedText, false)
  else
    match r.curTask, r.readLine with
    | some _, some none => some (r, false)
    | some cur, some (some (p, _, next)) =>
        (readLongLong p).bind (fun value =>
          let elements := toLong value
          let root := decide (r.ridx = 0)
          if elements = -1 then
            (next.createObject cur .nil).bind (fun made =>
              made.moveToNextTask.map (finishMultiBulk root .nil))
          else
            let obj := redisReply.array elements (List.replicate elements.toNat none)
            (next.createObject cur obj).bind (fun made =>
              if elements > 0 then
                (made.pathOf cur).bind (fun path =>
                  (made.pushTask cur elements path).map (finishMultiBulk root obj))
              else made.moveToNextTask.map (finishMultiBulk root obj)))
    | _, _ => none

def replyTypeOf (byte : Char) : Option ReplyType :=
  if byte = '-' then some .error
  else if byte = '+' then some .status
  else if byte = ':' then some .integer
  else if byte = '$' then some .string
  else if byte = '*' then some .array
  else none

def processTyped (r : redisReader) : Option (redisReader × Bool) :=
  match r.curTask.bind redisReadTask.type with
  | some .error => r.processLineItem
  | some .status => r.processLineItem
  | some .integer => r.processLineItem
  | some .string => r.processBulkItem
  | some .array => r.processMultiBulkItem
  | _ => none

def processItem (r : redisReader) : Option (redisReader × Bool) :=
  match r.curTask, r.unread with
  | some cur, some p =>
      if cur.type = none then
        match p with
        | [] => some (r, false)
        | byte :: _ =>
            match replyTypeOf byte with
            | none =>
                some (({ r with pos := r.pos + 1 }).redisReaderSetErrorProtocolByte byte, false)
            | some type =>
                processTyped
                  { r with
                    pos := r.pos + 1,
                    rstack := r.rstack.set r.ridx.toNat { cur with type := some type } }
      else processTyped r
  | _, _ => none

/-!
# The interface
-/

/-- The stack is allocated with zeros, which nothing reads. -/
def redisReaderCreate : redisReader where
  err := none
  errstr := []
  buf := some []
  pos := 0
  len := 0
  rstack := List.replicate 3 { type := none, elements := 0, idx := 0, obj := none, parent := none }
  ridx := -1
  reply := none

/-- The result says whether the bytes have been taken. -/
def redisReaderFeed (r : redisReader) (bytes : Text) : Option (redisReader × Bool) :=
  if r.err.isSome then some (r, false)
  else if bytes = [] then some (r, true)
  else
    r.buf.map (fun buf =>
      ({ r with buf := some (buf ++ bytes), len := (buf ++ bytes).length }, true))

def itemPass (r : redisReader) : Option (Pass redisReader redisReader) :=
  if r.ridx ≥ 0 then
    r.processItem.map (fun result => if result.2 then .goOn result.1 else .leave result.1)
  else some (.leave r)

def firstTask : redisReadTask where
  type := none
  elements := -1
  idx := -1
  obj := none
  parent := none

def startTask (r : redisReader) : redisReader :=
  if r.ridx = -1 then { r with rstack := r.rstack.set 0 firstTask, ridx := 0 } else r

/-- Discards what has been consumed, at least 1024 bytes. -/
def discard (r : redisReader) : redisReader :=
  if r.pos ≥ 1024 then
    { r with
      buf := r.buf.map (fun buf => sdsrange buf r.pos (-1)), pos := 0,
      len := ((r.buf.map (fun buf => sdsrange buf r.pos (-1))).getD []).length }
  else r

/-- What is returned when the items have been processed: the reader, whether the call
succeeded, and the reply if there is one. -/
def answer (processed : redisReader) : redisReader × Bool × Option redisReply :=
  if processed.err.isSome then (processed, false, none)
  else
    let kept := processed.discard
    if kept.ridx = -1 then ({ kept with reply := none }, true, kept.reply)
    else (kept, true, none)

def redisReaderGetReply (r : redisReader) : Option (redisReader × Bool × Option redisReply) :=
  if r.err.isSome then some (r, false, none)
  else if r.len = 0 then some (r, true, none)
  else (Loop itemPass (r.len - r.pos + 1) r.startTask).map answer

end redisReader
end Hiredis
end GMServer
