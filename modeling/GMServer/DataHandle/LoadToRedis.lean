import GMServer.DataHandle.DataTransfer
import GMServer.DataHandle.MySqlResult

/-!
# From MySQL to Redis

Rows are read with one query and become hashes: one for each key of a package, or one for
each row of a repeated group.
-/

namespace GMServer
namespace DataHandle
namespace DataTransfer

/-!
# Texts for Redis

`sscanf_s` stores the numbers that it finds and leaves the other members of the structure
as they are, which is uninitialised.
-/

def afterNumber (text : Text) : Text :=
  match text.dropWhile Text.isSpace with
  | '-' :: rest => rest.dropWhile Char.isDigit
  | '+' :: rest => rest.dropWhile Char.isDigit
  | rest => rest.dropWhile Char.isDigit

def afterSeparator (sep : Char) (text : Text) : Option Text :=
  if sep = ' ' then some (text.dropWhile Text.isSpace)
  else
    match text with
    | c :: rest => if c = sep then some rest else none
    | [] => none

/-- The numbers of a format that has separators between its conversions. -/
def sscanf_s : List Char -> Text -> List Int
  | seps, text =>
      match Text.readNumber text with
      | none => []
      | some number =>
          let value := StringValue.clamp (-2 ^ 31) (2 ^ 31 - 1) (StringValue.signedValue number)
          match seps with
          | [] => [value]
          | sep :: rest =>
              match afterSeparator sep (afterNumber text) with
              | none => [value]
              | some remaining => value :: sscanf_s rest remaining

def readTime (stTime : Tm) (strValue : Text) : Tm :=
  let numbers := sscanf_s ['-', '-', ' ', ':', ':'] (cStr strValue)
  { tm_year := numbers[0]?.getD stTime.tm_year - 1900,
    tm_mon := numbers[1]?.getD stTime.tm_mon - 1,
    tm_mday := numbers[2]?.getD stTime.tm_mday,
    tm_hour := numbers[3]?.getD stTime.tm_hour,
    tm_min := numbers[4]?.getD stTime.tm_min,
    tm_sec := numbers[5]?.getD stTime.tm_sec }

structure Clock where
  mktime : Tm -> BitVec 64
  stTime : Tm

def TranToRedisStr (clock : Clock) (strValue : Text) (eType : FieldType) : Text :=
  match eType with
  | .FT_datetime =>
      StringValue.ToString (.int64 (clock.mktime (readTime clock.stTime strValue)))
  | .FT_string => StringValue.ToString (.string strValue)
  | _ => strValue

/-!
# Packages
-/

section

variable {world connection : Type}

def packageKeys (mgr : KeyFieldMgr) (strDBTable : Text) : List Datakey :=
  (mgr.FindPackageDB strDBTable).filterMap mgr.FindDataKey

def fieldList (pKey : Datakey) : List FiledNameType := pKey.mField.map Prod.snd

/-- Between the fields of two keys there is no comma. -/
def selectPackageText (strDBTable : Text) (i64Key : uint64_t) (vKey : List Datakey) : Text :=
  "SELECT ".toList ++ vKey.flatMap (fun it => fieldNames it.mField.length 1 (fieldList it)) ++
    "FROM ".toList ++ strDBTable ++ " where Key=".toList ++ Text.decimal i64Key.toNat

def hashTexts (clock : Clock) (result : ResultSet) (row : List (Option Text)) :
    List FiledNameType -> Except Exception (List (Text × Text))
  | [] => .ok []
  | field :: rest =>
      match CMysqlResult.Get result row field.Name with
      | .error exception => .error exception
      | .ok strValue =>
          (hashTexts clock result row rest).map (fun texts =>
            (field.Name, TranToRedisStr clock strValue field.eType) :: texts)

def hmsetText (hash : Text) (texts : List (Text × Text)) : Text :=
  "HMSET ".toList ++ hash ++ texts.flatMap (fun text => ' ' :: (text.1 ++ ' ' :: text.2))

/-- The loop over the keys; an exception is caught behind it. -/
def loadKeys (server : RedisServer world) (clock : Clock) (i64Key : uint64_t)
    (result : ResultSet) (row : List (Option Text)) (redis : world) :
    List Datakey -> Option (world × Bool)
  | [] => some (redis, true)
  | it :: vKey =>
      it.pName.bind (fun pName =>
        match hashTexts clock result row (fieldList it) with
        | .error _ => some (redis, false)
        | .ok texts =>
            (RedisWrap.Execute server redis
              (hmsetText (RedisAdapter.structHash i64Key pName) texts)).bind (fun next =>
                loadKeys server clock i64Key result row next vKey))

/-- No result stands for the read of a null pointer, as is the name of a key that has none,
and for a command string that reads a missing argument. -/
def LoadPackageToRedis (server : RedisServer world) (reader : MySqlReader connection)
    (mgr : KeyFieldMgr) (clock : Clock) (redis : world) (mySql : connection)
    (strDBTable : Text) (i64Key : uint64_t) : Option (Outcome world connection) :=
  if mgr.FindPackageDB strDBTable = [] then
    some { redis := redis, mySql := mySql, bOK := false }
  else
    let vKey := packageKeys mgr strDBTable
    match CMysql.Query reader mySql (selectPackageText strDBTable i64Key vKey) with
    | (next, .error _) => some { redis := redis, mySql := next, bOK := false }
    | (next, .ok result) =>
        match result.rows with
        | [] => some { redis := redis, mySql := next, bOK := false }
        | row :: _ =>
            (loadKeys server clock i64Key result row redis vKey).map (fun loaded =>
              { redis := loaded.1, mySql := next, bOK := loaded.2 })

theorem loadPackage_true {server : RedisServer world} {reader : MySqlReader connection}
    {mgr : KeyFieldMgr} {clock : Clock} {redis : world} {mySql : connection}
    {strDBTable : Text} {i64Key : uint64_t} {outcome : Outcome world connection}
    (h : LoadPackageToRedis server reader mgr clock redis mySql strDBTable i64Key =
      some outcome) (hok : outcome.bOK = true) :
    exists next result row rows,
      CMysql.Query reader mySql (selectPackageText strDBTable i64Key
          (packageKeys mgr strDBTable)) = (next, .ok result) ∧
      result.rows = row :: rows ∧
      loadKeys server clock i64Key result row redis (packageKeys mgr strDBTable) =
        some (outcome.redis, true) := by
  unfold LoadPackageToRedis at h
  split at h
  · cases h
    cases hok
  · dsimp only at h
    split at h
    · cases h
      cases hok
    · rename_i next result hquery
      split at h
      · cases h
        cases hok
      · rename_i row rows hrows
        rcases Option.map_eq_some_iff.mp h with ⟨⟨loaded, done⟩, hload, hEq⟩
        cases hEq
        cases hok
        exact ⟨next, result, row, rows, hquery, hrows, hload⟩

theorem loadKeys_single {server : RedisServer world} {clock : Clock} {i64Key : uint64_t}
    {result : ResultSet} {row : List (Option Text)} {redis loaded : world} {it : Datakey}
    (h : loadKeys server clock i64Key result row redis [it] = some (loaded, true)) :
    exists pName texts, it.pName = some pName ∧
      hashTexts clock result row (fieldList it) = .ok texts ∧
      RedisWrap.Execute server redis
        (hmsetText (RedisAdapter.structHash i64Key pName) texts) = some loaded := by
  unfold loadKeys at h
  rcases Option.bind_eq_some_iff.mp h with ⟨pName, hpName, hnamed⟩
  split at hnamed
  · cases hnamed
  · rename_i texts htexts
    rcases Option.bind_eq_some_iff.mp hnamed with ⟨next, hexecute, hrest⟩
    unfold loadKeys at hrest
    cases hrest
    exact ⟨pName, texts, hpName, htexts, hexecute⟩

/-!
# Repeated groups
-/

def selectRepeatedText (strDBTable : Text) (i64Key : uint64_t) (pKey : Datakey) : Text :=
  "SELECT Index, ".toList ++ fieldNames pKey.mField.length 1 (fieldList pKey) ++
    "FROM ".toList ++ strDBTable ++ " where Key=".toList ++ Text.decimal i64Key.toNat

def keysText (pName : Text) (i64Key : uint64_t) : Text :=
  "KEYS ".toList ++ RedisWrap.scanPrefix pName i64Key ++ ['*']

def delText (it : Text) : Text := "DEL ".toList ++ it

def rowTexts (clock : Clock) (pKey : Datakey) (pName : Text) (i64Key : uint64_t)
    (result : ResultSet) : List (List (Option Text)) -> Except Exception (List Text)
  | [] => .ok []
  | row :: rows =>
      match CMysqlResult.Get result row "Index".toList with
      | .error exception => .error exception
      | .ok index =>
          match hashTexts clock result row (fieldList pKey) with
          | .error exception => .error exception
          | .ok texts =>
              (rowTexts clock pKey pName i64Key result rows).map
                (hmsetText (RedisAdapter.structHash i64Key pName ++ ':' :: index) texts :: ·)

/-- Nobody executes the command strings for the rows, and behind an exception the result is
that of a success. -/
def LoadRepeatedToRedis (server : RedisServer world) (reader : MySqlReader connection)
    (mgr : KeyFieldMgr) (clock : Clock) (redis : world) (mySql : connection)
    (strDBTable : Text) (i64Key : uint64_t) : Option (Outcome world connection) :=
  match mgr.FindRepeatedDB strDBTable with
  | none => some { redis := redis, mySql := mySql, bOK := false }
  | some pKey =>
      match CMysql.Query reader mySql (selectRepeatedText strDBTable i64Key pKey) with
      | (next, .error _) => some { redis := redis, mySql := next, bOK := true }
      | (next, .ok result) =>
          pKey.pName.bind (fun pName =>
            (RedisWrap.LoadTexts server redis (keysText pName i64Key)).bind (fun found =>
              (RedisWrap.executeAll server found.1 (found.2.map delText)).map (fun deleted =>
                match rowTexts clock pKey pName i64Key result result.rows with
                | .error _ => { redis := deleted, mySql := next, bOK := true }
                | .ok _ => { redis := deleted, mySql := next, bOK := true })))

end

end DataTransfer
end DataHandle
end GMServer
