import GMServer.DataHandle.MySql
import GMServer.DataHandle.RedisAdapter
import GMServer.DataHandle.RedisScan

/-!
# Between Redis and MySQL

`DataTransfer` takes the elements of a repeated group from Redis to a table.  It deletes the
rows of the first key, looks for the elements and inserts a row for each of them.
-/

namespace GMServer
namespace DataHandle
namespace DataTransfer

/-!
# Literals

The calendar is a parameter: the time zone decides what `localtime_s` makes of a time.
-/

structure Tm where
  tm_year : Int
  tm_mon : Int
  tm_mday : Int
  tm_hour : Int
  tm_min : Int
  tm_sec : Int

abbrev Calendar := BitVec 64 -> Tm

def datetimeText (stTime : Tm) : Text :=
  '\'' :: (StringValue.decimalInt (stTime.tm_year + 1900) ++
    '-' :: (StringValue.decimalInt (stTime.tm_mon + 1) ++
    '-' :: (StringValue.decimalInt stTime.tm_mday ++
    ' ' :: (StringValue.decimalInt stTime.tm_hour ++
    ':' :: (StringValue.decimalInt stTime.tm_min ++
    ':' :: (StringValue.decimalInt stTime.tm_sec ++ ['\'']))))))

def TranToDBStr (localtime_s : Calendar) (strValue : Text) (eType : FieldType) :
    Except Exception Text :=
  match eType with
  | .FT_datetime =>
      (StringValue.stoll strValue).map (fun tTime => datetimeText (localtime_s tTime))
  | .FT_string => .ok ((strValue.set 0 '\'').set (strValue.length - 1) '\'')
  | _ => .ok strValue

/-!
# Statements

The separators depend on a count that starts with 1.
-/

def fieldNames (size : Nat) : Nat -> List FiledNameType -> Text
  | _, [] => []
  | iIndex, field :: rest =>
      field.Name ++ ((if iIndex ≠ size then [','] else []) ++
        ' ' :: fieldNames size (iIndex + 1) rest)

def insertText (strDBTable : Text) (i64Key : uint64_t) (mField : List FiledNameType) : Text :=
  "INSERT INTO ".toList ++ strDBTable ++ " ( Key, Index, ".toList ++
    fieldNames mField.length 1 mField ++ ") VALUES (".toList ++
    Text.decimal i64Key.toNat ++ [',']

/-- The literals of the values that are not empty, and the count behind them.  There are as
many values as fields when this is called. -/
def valueTexts (localtime_s : Calendar) (size : Nat) :
    Nat -> List FiledNameType -> List Text -> Except Exception (Text × Nat)
  | iIndex, field :: rest, strValue :: listValue =>
      if strValue = [] then valueTexts localtime_s size iIndex rest listValue
      else
        match TranToDBStr localtime_s strValue field.eType with
        | .error exception => .error exception
        | .ok literal =>
            (valueTexts localtime_s size (iIndex + 1) rest listValue).map (fun texts =>
              (literal ++ ((if iIndex ≠ size then [','] else []) ++ ' ' :: texts.1), texts.2))
  | iIndex, _, _ => .ok ([], iIndex)

/-!
# Saving
-/

section

variable {world connection : Type}

structure Outcome (world connection : Type) where
  redis : world
  mySql : connection
  bOK : Bool

def elementQuery (pName : Text) (i64Key it : uint64_t) : Text :=
  "HMGET ".toList ++ RedisAdapter.elementHash i64Key it pName

/-- The loop over the elements; an exception is caught behind it. -/
def saveEach (server : RedisServer world) (client : MySqlClient connection)
    (localtime_s : Calendar) (strDBTable pName : Text) (mField : List FiledNameType)
    (i64Key : uint64_t) (redis : world) (mySql : connection) :
    List uint64_t -> Option (Outcome world connection)
  | [] => some { redis := redis, mySql := mySql, bOK := true }
  | it :: listKey =>
      (RedisWrap.LoadTexts server redis (elementQuery pName i64Key it)).bind (fun loaded =>
        if loaded.2.length ≠ mField.length then
          some { redis := loaded.1, mySql := mySql, bOK := false }
        else
          match valueTexts localtime_s mField.length 1 mField loaded.2 with
          | .error _ => some { redis := loaded.1, mySql := mySql, bOK := false }
          | .ok (values, iIndex) =>
              if 1 < iIndex then
                match CMysql.Execute client mySql
                    (insertText strDBTable i64Key mField ++ Text.decimal it.toNat ++
                      ", ".toList ++ values ++ [')']) with
                | (next, none) =>
                    saveEach server client localtime_s strDBTable pName mField i64Key loaded.1
                      next listKey
                | (next, some _) => some { redis := loaded.1, mySql := next, bOK := false }
              else
                saveEach server client localtime_s strDBTable pName mField i64Key loaded.1 mySql
                  listKey)

/-- No result stands for a scan that does not come to its end or that reads a null pointer, as
does the name of a key that has none. -/
def SaveRepeatedToDB (server : RedisServer world) (client : MySqlClient connection)
    (mgr : KeyFieldMgr) (localtime_s : Calendar) (fuel : Nat) (redis : world)
    (mySql : connection) (strDBTable : Text) (i64Key : uint64_t) :
    Option (Outcome world connection) :=
  match mgr.FindRepeatedDB strDBTable with
  | none => some { redis := redis, mySql := mySql, bOK := false }
  | some pKey =>
      pKey.pName.bind (fun pName =>
        (RedisWrap.ScanKey server fuel redis i64Key pName []).bind (fun scanned =>
          match CMysql.Execute client mySql (deleteText strDBTable i64Key) with
          | (next, some _) => some { redis := scanned.1, mySql := next, bOK := false }
          | (next, none) =>
              saveEach server client localtime_s strDBTable pName (pKey.mField.map Prod.snd)
                i64Key scanned.1 next scanned.2))

/-!
# What is executed

The list of elements stays empty, so nothing follows the deletion.
-/

variable {server : RedisServer world} {client : MySqlClient connection} {mgr : KeyFieldMgr}
  {localtime_s : Calendar} {fuel : Nat} {redis : world} {mySql : connection} {strDBTable : Text}
  {i64Key : uint64_t}

theorem saveRepeated_cases {outcome : Outcome world connection}
    (h : SaveRepeatedToDB server client mgr localtime_s fuel redis mySql strDBTable i64Key =
      some outcome) :
    (mgr.FindRepeatedDB strDBTable = none ∧ outcome.mySql = mySql ∧ outcome.bOK = false) ∨
      exists pKey pName, mgr.FindRepeatedDB strDBTable = some pKey ∧ pKey.pName = some pName ∧
        outcome.mySql = (CMysql.Execute client mySql (deleteText strDBTable i64Key)).1 ∧
        (outcome.bOK = true <->
          (CMysql.Execute client mySql (deleteText strDBTable i64Key)).2 = none) := by
  unfold SaveRepeatedToDB at h
  split at h
  · rename_i hunknown
    cases h
    exact Or.inl ⟨hunknown, rfl, rfl⟩
  · rename_i pKey hfind
    rcases Option.bind_eq_some_iff.mp h with ⟨pName, hname, hnamed⟩
    rcases Option.bind_eq_some_iff.mp hnamed with ⟨scanned, hscan, hscanned⟩
    rw [RedisWrap.scanKey_listKey hscan] at hscanned
    refine Or.inr ⟨pKey, pName, hfind, hname, ?_⟩
    split at hscanned
    · rename_i next exception hexecute
      cases hscanned
      rw [hexecute]
      exact ⟨rfl, iff_of_false Bool.false_ne_true (Option.some_ne_none _)⟩
    · rename_i next hexecute
      unfold saveEach at hscanned
      cases hscanned
      rw [hexecute]
      exact ⟨rfl, iff_of_true rfl rfl⟩

/-- If the scan comes to its end and the deletion is executed, the rows are taken to be
saved. -/
theorem saveRepeated_succeeds {pKey : Datakey} {pName : Text}
    (hfind : mgr.FindRepeatedDB strDBTable = some pKey) (hname : pKey.pName = some pName)
    {scanned : world × List uint64_t}
    (hscan : RedisWrap.ScanKey server fuel redis i64Key pName [] = some scanned)
    {next : connection}
    (hexecute : CMysql.Execute client mySql (deleteText strDBTable i64Key) = (next, none)) :
    SaveRepeatedToDB server client mgr localtime_s fuel redis mySql strDBTable i64Key =
      some { redis := scanned.1, mySql := next, bOK := true } := by
  unfold SaveRepeatedToDB
  rw [hfind]
  dsimp only
  rw [hname, Option.bind_some, hscan, Option.bind_some, hexecute,
    RedisWrap.scanKey_listKey hscan]
  rfl

end

end DataTransfer
end DataHandle
end GMServer
