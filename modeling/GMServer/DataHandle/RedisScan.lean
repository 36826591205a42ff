import GMServer.DataHandle.RedisWrap

/-!
# Looking for keys

`ScanKey` runs through the keys that begin with a name and a first key and collects what
stands behind.  The list it collects in is its own: the list of the caller stays as it is.
-/

namespace GMServer
namespace DataHandle
namespace RedisWrap

section

variable {world : Type}

/-!
# One step of the scan

`atoi` is called with the text of the first element, which numbers and arrays do not have;
the texts of status and error replies do not begin with digits.
-/

def scanCursor : Reply -> Option uint32_t
  | .string str => some (StringValue.atoi (cStr str))
  | .status => some 0
  | .error => some 0
  | _ => none

/-- The loop over the matches. -/
def scanMatches (strkey : Text) : List Reply -> Option (List uint64_t)
  | [] => some []
  | .string str :: rest =>
      (StringValue.GetKey64 (cStr str) (cStr strkey)).bind (fun iKey =>
        (scanMatches strkey rest).map (iKey :: ·))
  | _ :: rest => scanMatches strkey rest

/-- Only an array has elements. -/
def Reply.elementsOf : Reply -> List Reply
  | .array elements => elements
  | _ => []

def scanReply (strkey : Text) : Option Reply -> Option (uint32_t × List uint64_t)
  | some (.array (cursor :: pTable :: _)) =>
      (scanCursor cursor).bind (fun iIndex =>
        (scanMatches strkey (Reply.elementsOf pTable)).map (fun listKey => (iIndex, listKey)))
  | _ => some (0, [])

/-- `ScanKey(strScan, strkey, listKey)`. -/
def ScanOnce (server : RedisServer world) (state : world) (strScan strkey : Text)
    (listKey : List uint64_t) : Option (world × uint32_t × List uint64_t) :=
  (DoCmd server state strScan).bind (fun result =>
    (scanReply strkey result.2).map (fun scanned =>
      (result.1, scanned.1, listKey ++ scanned.2)))

/-!
# The whole scan
-/

def scanPrefix (strKeyName : Text) (i64Key : uint64_t) : Text :=
  strKeyName ++ ':' :: (Text.decimal i64Key.toNat ++ [':'])

def scanText (strKey : Text) (iIndex : uint32_t) : Text :=
  "SCAN ".toList ++ Text.decimal iIndex.toNat ++ " MATCH ".toList ++ strKey ++ ['*']

def scanLoop (server : RedisServer world) (strKey : Text) :
    Nat -> world -> uint32_t -> List uint64_t -> Option (world × List uint64_t)
  | 0, _, _, _ => none
  | fuel + 1, state, iIndex, listOut =>
      (ScanOnce server state (scanText strKey iIndex) strKey listOut).bind (fun scanned =>
        if scanned.2.1 = 0 then some (scanned.1, scanned.2.2)
        else scanLoop server strKey fuel scanned.1 scanned.2.1 scanned.2.2)

/-- `ScanKey(i64Key, strKeyName, listKey)`; `listOut` is not handed on. -/
def ScanKey (server : RedisServer world) (fuel : Nat) (state : world) (i64Key : uint64_t)
    (strKeyName : Text) (listKey : List uint64_t) : Option (world × List uint64_t) :=
  (scanLoop server (scanPrefix strKeyName i64Key) fuel state 0 []).map (fun scanned =>
    (scanned.1, listKey))

theorem scanKey_listKey {server : RedisServer world} {fuel : Nat} {state : world}
    {i64Key : uint64_t} {strKeyName : Text} {listKey : List uint64_t}
    {scanned : world × List uint64_t}
    (h : ScanKey server fuel state i64Key strKeyName listKey = some scanned) :
    scanned.2 = listKey := by
  rcases Option.map_eq_some_iff.mp h with ⟨looped, _, hEq⟩
  rw [← hEq]

/-!
# Reading texts
-/

def readText : Reply -> Text
  | .string str => cStr str
  | _ => []

/-- `Load` into a list of texts, which is empty before. -/
def LoadTexts (server : RedisServer world) (state : world) (strQuery : Text) :
    Option (world × List Text) :=
  (DoCmd server state strQuery).map (fun result =>
    (result.1,
      match result.2 with
      | some (.array elements) => elements.map readText
      | _ => []))

end

end RedisWrap
end DataHandle
end GMServer
