import GMServer.DataHandle.LoadToRedis
import GMServer.DataHandle.Registry
import GMServer.DataHandle.SaveRepeated

/-!
# Saving a package

The fields of all keys of a table go to one row.  If there is a row it is updated; the
statement that should insert one goes to Redis instead.
-/

namespace GMServer
namespace DataHandle
namespace DataTransfer

open Std RedisAdapter

/-!
# Statements

`mKeyValue` is sorted by the names of the columns.
-/

def selectAllText (strDBTable : Text) (i64Key : uint64_t) : Text :=
  "Select * FROM ".toList ++ strDBTable ++ " WHERE Key = ".toList ++ Text.decimal i64Key.toNat

/-- The separators depend on a count that starts with 1. -/
def assignments (size : Nat) : Nat -> List (Text × Text) -> Text
  | _, [] => []
  | iIndex, it :: rest =>
      it.1 ++ '=' :: (it.2 ++ (if iIndex ≠ size then ',' else ' ') ::
        assignments size (iIndex + 1) rest)

def updateText (strDBTable : Text) (i64Key : uint64_t) (mKeyValue : ExtTreeMap Text Text) :
    Text :=
  "UPDATE ".toList ++ strDBTable ++ " SET ".toList ++
    assignments mKeyValue.toList.length 1 mKeyValue.toList ++ "WHERE Key=".toList ++
    Text.decimal i64Key.toNat

def listed (size : Nat) : Nat -> List Text -> Text
  | _, [] => []
  | iIndex, text :: rest =>
      text ++ ((if iIndex ≠ size then [','] else []) ++ listed size (iIndex + 1) rest)

def insertPackageText (strDBTable : Text) (i64Key : uint64_t)
    (mKeyValue : ExtTreeMap Text Text) : Text :=
  let size := mKeyValue.toList.length
  "INSERT INTO ".toList ++ strDBTable ++ " (Key,".toList ++
    listed size 1 (mKeyValue.toList.map Prod.fst) ++ ") VALUES(".toList ++
    Text.decimal i64Key.toNat ++ ",".toList ++
    listed size 1 (mKeyValue.toList.map Prod.snd) ++ ")".toList

/-!
# Saving
-/

section

variable {world connection : Type}

def packageQuery (hash : Text) (names : List Text) : Text :=
  "HMGET ".toList ++ hash ++ names.flatMap (' ' :: ·)

/-- The literals of the values that are not empty.  There are as many values as fields when
this is called. -/
def readValues (localtime_s : Calendar) (mKeyValue : ExtTreeMap Text Text) :
    List FiledNameType -> List Text -> Except Exception (ExtTreeMap Text Text)
  | field :: rest, strValue :: listResult =>
      if strValue = [] then readValues localtime_s mKeyValue rest listResult
      else
        match TranToDBStr localtime_s strValue field.eType with
        | .error exception => .error exception
        | .ok literal =>
            readValues localtime_s (mKeyValue.insert field.Name literal) rest listResult
  | _, _ => .ok mKeyValue

/-- The loop over the keys; nothing is read if there are too few values or a value cannot be
converted. -/
def readKeys (server : RedisServer world) (localtime_s : Calendar) (i64Key : uint64_t)
    (redis : world) (mKeyValue : ExtTreeMap Text Text) :
    List Datakey -> Option (world × Option (ExtTreeMap Text Text))
  | [] => some (redis, some mKeyValue)
  | it :: vKey =>
      it.pName.bind (fun pName =>
        (RedisWrap.LoadTexts server redis (packageQuery (structHash i64Key pName)
            ((fieldList it).map FiledNameType.Name))).bind (fun loaded =>
          if loaded.2.length ≠ it.mField.length then some (loaded.1, none)
          else
            match readValues localtime_s mKeyValue (fieldList it) loaded.2 with
            | .error _ => some (loaded.1, none)
            | .ok values => readKeys server localtime_s i64Key loaded.1 values vKey))

/-- No result stands for the read of a null pointer, as is the name of a key that has none,
and for a command string that reads a missing argument. -/
def SavePackageToDB (server : RedisServer world) (reader : MySqlReader connection)
    (mgr : KeyFieldMgr) (localtime_s : Calendar) (redis : world) (mySql : connection)
    (strDBTable : Text) (i64Key : uint64_t) : Option (Outcome world connection) :=
  if mgr.FindPackageDB strDBTable = [] then
    some { redis := redis, mySql := mySql, bOK := false }
  else
    match CMysql.Query reader mySql (selectAllText strDBTable i64Key) with
    | (next, .error _) => some { redis := redis, mySql := next, bOK := false }
    | (next, .ok result) =>
        (readKeys server localtime_s i64Key redis ∅ (packageKeys mgr strDBTable)).bind
          (fun read =>
            match read.2 with
            | none => some { redis := read.1, mySql := next, bOK := false }
            | some mKeyValue =>
                if result.rows ≠ [] then
                  match CMysql.Execute reader.toMySqlClient next
                      (updateText strDBTable i64Key mKeyValue) with
                  | (updated, none) => some { redis := read.1, mySql := updated, bOK := true }
                  | (updated, some _) => some { redis := read.1, mySql := updated, bOK := false }
                else
                  -- the connection to Redis, not the one to MySQL
                  (RedisWrap.Execute server read.1
                      (insertPackageText strDBTable i64Key mKeyValue)).map (fun inserted =>
                    { redis := inserted, mySql := next, bOK := true }))

theorem readKeys_single {server : RedisServer world} {localtime_s : Calendar}
    {i64Key : uint64_t} {redis loaded : world} {mKeyValue values : ExtTreeMap Text Text}
    {it : Datakey} {pName : Text} (hpName : it.pName = some pName)
    (h : readKeys server localtime_s i64Key redis mKeyValue [it] = some (loaded, some values)) :
    exists texts,
      RedisWrap.LoadTexts server redis (packageQuery (structHash i64Key pName)
          ((fieldList it).map FiledNameType.Name)) = some (loaded, texts) ∧
      texts.length = (fieldList it).length ∧
      readValues localtime_s mKeyValue (fieldList it) texts = .ok values := by
  unfold readKeys at h
  rw [hpName, Option.bind_some] at h
  rcases Option.bind_eq_some_iff.mp h with ⟨⟨state, texts⟩, hload, hrest⟩
  dsimp only at hrest
  split at hrest
  · cases hrest
  · rename_i hlength
    split at hrest
    · cases hrest
    · rename_i collected hvalues
      unfold readKeys at hrest
      cases hrest
      refine ⟨texts, hload, ?_, hvalues⟩
      unfold fieldList
      rw [List.length_map]
      exact not_not.mp hlength

/-- What is reported as saved was read, and was updated if there was a row. -/
theorem savePackage_true {server : RedisServer world} {reader : MySqlReader connection}
    {mgr : KeyFieldMgr} {localtime_s : Calendar} {redis : world} {mySql : connection}
    {strDBTable : Text} {i64Key : uint64_t} {outcome : Outcome world connection}
    (h : SavePackageToDB server reader mgr localtime_s redis mySql strDBTable i64Key =
      some outcome) (hok : outcome.bOK = true) :
    exists next result loaded mKeyValue,
      CMysql.Query reader mySql (selectAllText strDBTable i64Key) = (next, .ok result) ∧
      readKeys server localtime_s i64Key redis ∅ (packageKeys mgr strDBTable) =
        some (loaded, some mKeyValue) ∧
      ((result.rows ≠ [] ∧ CMysql.Execute reader.toMySqlClient next
          (updateText strDBTable i64Key mKeyValue) = (outcome.mySql, none)) ∨
        (result.rows = [] ∧ outcome.mySql = next)) := by
  unfold SavePackageToDB at h
  split at h
  · cases h
    cases hok
  · split at h
    · cases h
      cases hok
    · rename_i next result hquery
      rcases Option.bind_eq_some_iff.mp h with ⟨⟨loaded, values⟩, hread, hsaved⟩
      dsimp only at hsaved
      cases values with
      | none =>
          cases hsaved
          cases hok
      | some mKeyValue =>
          refine ⟨next, result, loaded, mKeyValue, hquery, hread, ?_⟩
          dsimp only at hsaved
          by_cases hrows : result.rows ≠ []
          · rw [if_pos hrows] at hsaved
            split at hsaved
            · rename_i updated hexecute
              cases hsaved
              exact Or.inl ⟨hrows, hexecute⟩
            · cases hsaved
              cases hok
          · rw [if_neg hrows] at hsaved
            rcases Option.map_eq_some_iff.mp hsaved with ⟨inserted, _, hEq⟩
            cases hEq
            exact Or.inr ⟨not_not.mp hrows, rfl⟩

end

/-!
# What an update does
-/

def updateRow (i64Key : uint64_t) (mKeyValue : ExtTreeMap Text Text) (row : Row) : Row :=
  if row.Key = i64Key then
    { row with columns := fun column => (mKeyValue[column]?).or (row.columns column) }
  else row

def updateRows (database : Database) (strDBTable : Text) (i64Key : uint64_t)
    (mKeyValue : ExtTreeMap Text Text) : Database :=
  Function.update database strDBTable
    ((database strDBTable).map (updateRow i64Key mKeyValue))

theorem updateRow_updateRow (i64Key : uint64_t) (mKeyValue : ExtTreeMap Text Text) (row : Row) :
    updateRow i64Key mKeyValue (updateRow i64Key mKeyValue row) =
      updateRow i64Key mKeyValue row := by
  unfold updateRow
  by_cases hkey : row.Key = i64Key
  · rw [if_pos hkey, if_pos hkey]
    congr 1
    funext column
    rw [← Option.or_assoc, Option.or_self]
  · rw [if_neg hkey, if_neg hkey]

theorem updateRows_repeat (database : Database) (strDBTable : Text) (i64Key : uint64_t)
    (mKeyValue : ExtTreeMap Text Text) :
    updateRows (updateRows database strDBTable i64Key mKeyValue) strDBTable i64Key mKeyValue =
      updateRows database strDBTable i64Key mKeyValue := by
  unfold updateRows
  rw [Function.update_self, Function.update_idem, List.map_map]
  congr 1
  apply List.map_congr_left
  intro row _
  exact updateRow_updateRow i64Key mKeyValue row

end DataTransfer
end DataHandle
end GMServer
