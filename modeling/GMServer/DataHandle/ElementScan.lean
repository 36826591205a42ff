import GMServer.DataHandle.LoadFields
import GMServer.DataHandle.LoadRepeated

/-!
# Listing the elements

The elements of a repeated group are found by a scan for the keys that begin with a name and
a first key.  Redis answers a scan in pages, each with the cursor of the next one; the code
reads cursors and indices with functions that have no room for all of them, and one of its two
loops keeps what it has found to itself.
-/

namespace GMServer
namespace DataHandle

open Std
open RedisAdapter RedisWrap

namespace RedisAdapter

/-- `GetAllKey`; no result stands for a scan that does not come to its end or that reads a null
pointer. -/
def GetAllKey {world : Type} (server : Option (RedisServer world)) (mgr : KeyFieldMgr)
    (fuel : Nat) (state : world) (i64Key : uint64_t) (iRediskey : uint32_t) :
    Option (world × Except Exception (List uint64_t)) :=
  match mgr.FindKey iRediskey, server with
  | some sKey, some m_pRedisWarp =>
      (RedisWrap.scanLoop m_pRedisWarp (RedisWrap.scanPrefix sKey i64Key) fuel state 0 []).map
        (fun scanned => (scanned.1, .ok scanned.2))
  | _, _ => some (state, .error .runtime_error)

end RedisAdapter

/-!
# The iteration of a server

A page has the cursor of the next page, or 0 if it is the last, and keys that match.  For every
pattern there is an iteration; with a cursor that it did not hand out itself a server may do
anything.
-/

structure Page where
  cursor : uint64_t
  keys : List Text
  deriving DecidableEq, Repr

def Page.reply (page : Page) : Reply :=
  .array [.string (Text.decimal page.cursor.toNat), .array (page.keys.map Reply.string)]

def scanArgs (cursor : Nat) (pattern : Text) : List Text :=
  ["SCAN".toList, Text.decimal cursor, "MATCH".toList, pattern]

/-- Only the last page has the cursor 0. -/
def Ends : List Page -> Prop
  | [] => False
  | page :: rest => if page.cursor = 0 then rest = [] else Ends rest

section

variable {world : Type}

def Follows (server : RedisServer world) (pattern : Text) :
    world -> uint64_t -> List Page -> Prop
  | _, _, [] => False
  | state, cursor, page :: rest =>
      (server state (scanArgs cursor.toNat pattern)).2 = some page.reply ∧
        if page.cursor = 0 then rest = []
        else Follows server pattern (server state (scanArgs cursor.toNat pattern)).1 page.cursor
          rest

/-- The server iterates over these pages. -/
def ScanContract (server : RedisServer world) (state : world) (iteration : Text -> List Page) :
    Prop :=
  forall pattern, Follows server pattern state 0 (iteration pattern)

end

/-- Every key that is there and matches is on a page, and nothing else is. -/
structure Complete (store : RedisStore) (globs : Text -> Text -> Prop)
    (iteration : Text -> List Page) : Prop where
  ends : forall pattern, Ends (iteration pattern)
  keys : forall pattern key, key ∈ (iteration pattern).flatMap Page.keys <->
    store key ≠ none ∧ globs pattern key

/-!
# What a page adds
-/

namespace StringValue

theorem subString_iff {pSrc pSub rest : Text} :
    SubString pSrc pSub = some rest <-> pSrc = pSub ++ rest ∧ rest ≠ [] := by
  fun_induction SubString pSrc pSub with
  | case1 pSub =>
      constructor
      · intro h
        cases h
      · intro h
        have hnil := List.append_eq_nil_iff.mp h.left.symm
        exact absurd hnil.right h.right
  | case2 c pSrc =>
      constructor
      · intro h
        cases h
        exact ⟨rfl, List.cons_ne_nil _ _⟩
      · intro h
        exact congrArg some h.left
  | case3 c pSrc d pSub hne =>
      constructor
      · intro h
        cases h
      · intro h
        exact absurd (List.cons.inj h.left).left hne
  | case4 c pSrc d pSub hEq ih =>
      rw [ih, not_not.mp hEq, List.cons_append, List.cons.injEq]
      simp only [true_and]

end StringValue

namespace RedisWrap

/-- The index behind the name and the first key. -/
def indexOf (strKey key : Text) : Option uint64_t :=
  StringValue.GetKey64 (cStr key) (cStr strKey)

theorem scanMatches_strings (strKey : Text) (keys : List Text) :
    scanMatches strKey (keys.map Reply.string) = keys.mapM (indexOf strKey) := by
  induction keys with
  | nil => rfl
  | cons key keys ih =>
      rw [List.map_cons, List.mapM_cons, scanMatches, ih]
      show (indexOf strKey key).bind _ = (indexOf strKey key).bind _
      cases indexOf strKey key with
      | none => rfl
      | some iKey =>
          show Option.map _ (keys.mapM (indexOf strKey)) = (keys.mapM (indexOf strKey)).bind _
          cases keys.mapM (indexOf strKey) with
          | none => rfl
          | some listKey => rfl

/-- How the pattern arrives. -/
def patternArgs (strKey : Text) : Option (List Text) :=
  formatFrom [] false (cStr (strKey ++ ['*']))

theorem format_scanText (strKey : Text) (iIndex : uint32_t) :
    redisvFormatCommand (scanText strKey iIndex) =
      (patternArgs strKey).map (fun args =>
        "SCAN".toList :: Text.decimal iIndex.toNat :: "MATCH".toList :: args) := by
  have hwords : forall word, word ∈ ["SCAN".toList, Text.decimal iIndex.toNat, "MATCH".toList] ->
      IsWord word := by
    have hfirst : IsWord "SCAN".toList := by decide
    have hlast : IsWord "MATCH".toList := by decide
    intro word hword
    simp only [List.mem_cons, List.not_mem_nil, or_false] at hword
    rcases hword with hEq | hEq | hEq
    · rw [hEq]
      exact hfirst
    · rw [hEq]
      exact isWord_decimal _
    · rw [hEq]
      exact hlast
  have hshape : scanText strKey iIndex =
      commandText ["SCAN".toList, Text.decimal iIndex.toNat, "MATCH".toList] ++
        (strKey ++ ['*']) := by
    rw [commandText_cons, commandText_cons, commandText_cons]
    unfold scanText commandText
    simp only [List.append_assoc, List.cons_append, List.flatMap_nil, List.nil_append]
    rfl
  rw [hshape, format_words_append hwords]
  rfl

theorem scanOnce_page {world : Type} {server : RedisServer world} {state : world}
    {strKey : Text} {iIndex : uint32_t} {args : List Text} {page : Page}
    (hformat : redisvFormatCommand (scanText strKey iIndex) = some args)
    (hreply : (server state args).2 = some page.reply) (listOut : List uint64_t) :
    ScanOnce server state (scanText strKey iIndex) strKey listOut =
      (page.keys.mapM (indexOf strKey)).map (fun listKey =>
        ((server state args).1, StringValue.atoi (Text.decimal page.cursor.toNat),
          listOut ++ listKey)) := by
  unfold ScanOnce DoCmd
  rw [hformat, Option.map_some, Option.bind_some, hreply]
  unfold Page.reply scanReply scanCursor Reply.elementsOf
  dsimp only
  rw [Option.bind_some, scanMatches_strings, cStr_decimal, Option.map_map]
  rfl

/-!
# A whole iteration

Cursors that `atoi` has room for are handed back as they came.
-/

theorem cursor_returned {cursor : uint64_t} (hsmall : cursor.toNat < 2 ^ 31) :
    (StringValue.atoi (Text.decimal cursor.toNat)).toNat = cursor.toNat := by
  rw [StringValue.atoi_small hsmall, BitVec.toNat_ofNat]
  omega

theorem atoi_cursor_eq_zero_iff (cursor : uint64_t) :
    StringValue.atoi (Text.decimal cursor.toNat) = 0 <-> cursor = 0 := by
  constructor
  · intro hzero
    by_cases hsmall : cursor.toNat < 2 ^ 31
    · have hvalue := cursor_returned hsmall
      rw [hzero] at hvalue
      exact BitVec.eq_of_toNat_eq hvalue.symm
    · rw [StringValue.atoi_large (by omega)] at hzero
      exact absurd hzero (by decide)
  · intro hEq
    rw [hEq]
    rfl

theorem scanLoop_follows {world : Type} {server : RedisServer world} {strKey pattern : Text}
    (hpattern : patternArgs strKey = some [pattern]) {pages : List Page} {listKey : List uint64_t}
    (hsmall : forall page, page ∈ pages -> page.cursor.toNat < 2 ^ 31)
    (hkeys : (pages.flatMap Page.keys).mapM (indexOf strKey) = some listKey) {state : world}
    {cursor : uint64_t} (hfollows : Follows server pattern state cursor pages)
    {iIndex : uint32_t} (hIndex : iIndex.toNat = cursor.toNat) (listOut : List uint64_t) :
    exists fuel last, scanLoop server strKey fuel state iIndex listOut =
      some (last, listOut ++ listKey) := by
  induction pages generalizing state cursor iIndex listOut listKey with
  | nil => exact False.elim hfollows
  | cons page rest ih =>
      rcases hfollows with ⟨hreply, hnext⟩
      have hformat := format_scanText strKey iIndex
      rw [hpattern, Option.map_some, hIndex] at hformat
      rw [List.flatMap_cons, List.mapM_append] at hkeys
      rcases Option.bind_eq_some_iff.mp hkeys with ⟨here, hhere, hlater⟩
      rcases Option.bind_eq_some_iff.mp hlater with ⟨later, hmore, hlist⟩
      cases hlist
      have honce := scanOnce_page hformat hreply listOut
      rw [hhere, Option.map_some] at honce
      split at hnext
      · rename_i hlast
        rw [hnext] at hmore
        cases hmore
        refine ⟨1, (server state (scanArgs cursor.toNat pattern)).1, ?_⟩
        rw [scanLoop, honce, Option.bind_some, if_pos ((atoi_cursor_eq_zero_iff _).mpr hlast)]
        show _ = some (_, listOut ++ (here ++ []))
        rw [List.append_nil]
        rfl
      · rename_i hlast
        rcases ih (fun later hlater => hsmall later (List.mem_cons_of_mem _ hlater)) hmore hnext
            (cursor_returned (hsmall page List.mem_cons_self)) (listOut ++ here) with
          ⟨fuel, last, hloop⟩
        refine ⟨fuel + 1, last, ?_⟩
        rw [scanLoop, honce, Option.bind_some,
          if_neg (fun hzero => hlast ((atoi_cursor_eq_zero_iff _).mp hzero)), ← List.append_assoc]
        exact hloop

end RedisWrap

/-!
# A server that insists

It answers the command that the iteration is waiting for, and any other with a page that is
empty and not the last.
-/

def stuckPage : Page := { cursor := 1, keys := [] }

/-- The pattern and the cursor that should come next, and the pages that are left. -/
abbrev Iterating := Text × uint64_t × List Page

def serveNext (it : Iterating) (argv : List Text) : Option Iterating × Option Reply :=
  match it.2.2 with
  | [] => (some it, some stuckPage.reply)
  | page :: rest =>
      if argv = scanArgs it.2.1.toNat it.1 then
        (some (it.1, page.cursor, rest), some page.reply)
      else (some (it.1, it.2.1, []), some stuckPage.reply)

def protocolServer (iteration : Text -> List Page) : RedisServer (Option Iterating)
  | some it, argv => serveNext it argv
  | none, [command, cursor, word, pattern] =>
      serveNext (pattern, 0, iteration pattern) [command, cursor, word, pattern]
  | none, _ => (some ([], 0, []), some stuckPage.reply)

section

variable {iteration : Text -> List Page}

theorem serveNext_follows {pages : List Page} (hends : Ends pages) (pattern : Text)
    (cursor : uint64_t) :
    Follows (protocolServer iteration) pattern (some (pattern, cursor, pages)) cursor pages := by
  induction pages generalizing cursor with
  | nil => exact hends
  | cons page rest ih =>
      have hserve : protocolServer iteration (some (pattern, cursor, page :: rest))
          (scanArgs cursor.toNat pattern) =
            (some (pattern, page.cursor, rest), some page.reply) := if_pos rfl
      unfold Follows
      rw [hserve]
      refine ⟨rfl, ?_⟩
      unfold Ends at hends
      split at hends
      · rename_i hlast
        rw [if_pos hlast]
        exact hends
      · rename_i hlast
        rw [if_neg hlast]
        exact ih hends page.cursor

theorem protocolServer_contract (hends : forall pattern, Ends (iteration pattern)) :
    ScanContract (protocolServer iteration) none iteration := by
  intro pattern
  have hfollows : Follows (protocolServer iteration) pattern
      (some (pattern, 0, iteration pattern)) 0 (iteration pattern) :=
    serveNext_follows (hends pattern) pattern 0
  cases hpages : iteration pattern with
  | nil =>
      rw [hpages] at hfollows
      exact hfollows
  | cons page rest =>
      have hstart : protocolServer iteration none (scanArgs 0 pattern) =
          protocolServer iteration (some (pattern, 0, page :: rest)) (scanArgs 0 pattern) := by
        rw [← hpages]
        rfl
      rw [hpages] at hfollows
      unfold Follows at hfollows ⊢
      rw [show (0 : uint64_t).toNat = 0 from rfl] at hfollows ⊢
      rw [hstart]
      exact hfollows

/-- With any other cursor the scan never comes to its end. -/
theorem scanLoop_stuck {strKey : Text} {fuel : Nat} {it : Iterating} (hleft : it.2.2 = [])
    {iIndex : uint32_t} {listOut : List uint64_t} :
    scanLoop (protocolServer iteration) strKey fuel (some it) iIndex listOut = none := by
  induction fuel generalizing iIndex listOut with
  | zero => rfl
  | succ fuel ih =>
      cases hformat : redisvFormatCommand (scanText strKey iIndex) with
      | none =>
          unfold scanLoop ScanOnce DoCmd
          rw [hformat]
          rfl
      | some args =>
          have hserve :
              protocolServer iteration (some it) args = (some it, some stuckPage.reply) := by
            show serveNext it args = _
            unfold serveNext
            rw [hleft]
          have honce := scanOnce_page hformat (congrArg Prod.snd hserve) listOut
          rw [hserve] at honce
          rw [scanLoop, honce]
          exact ih

theorem scanLoop_unformatted {world : Type} {server : RedisServer world} {strKey : Text}
    (hpattern : patternArgs strKey = none) (fuel : Nat) (state : world) (iIndex : uint32_t)
    (listOut : List uint64_t) : scanLoop server strKey fuel state iIndex listOut = none := by
  cases fuel with
  | zero => rfl
  | succ fuel =>
      have hformat := format_scanText strKey iIndex
      rw [hpattern] at hformat
      unfold scanLoop ScanOnce DoCmd
      rw [hformat]
      rfl

/-- A scan that comes to its end has asked for the next page. -/
theorem scanLoop_asks {strKey pattern : Text} {page : Page} {rest : List Page} {fuel : Nat}
    {cursor : uint64_t} {iIndex : uint32_t} {listOut : List uint64_t}
    {scanned : Option Iterating × List uint64_t}
    (h : scanLoop (protocolServer iteration) strKey (fuel + 1)
      (some (pattern, cursor, page :: rest)) iIndex listOut = some scanned) :
    iIndex.toNat = cursor.toNat ∧ patternArgs strKey = some [pattern] ∧
      exists here, page.keys.mapM (indexOf strKey) = some here ∧
        if page.cursor = 0 then scanned.2 = listOut ++ here
        else scanLoop (protocolServer iteration) strKey fuel (some (pattern, page.cursor, rest))
          (StringValue.atoi (Text.decimal page.cursor.toNat)) (listOut ++ here) = some scanned := by
  have hformat := format_scanText strKey iIndex
  cases hpattern : patternArgs strKey with
  | none =>
      rw [scanLoop_unformatted hpattern] at h
      cases h
  | some args =>
      rw [hpattern, Option.map_some] at hformat
      by_cases hasked : "SCAN".toList :: Text.decimal iIndex.toNat :: "MATCH".toList :: args =
          scanArgs cursor.toNat pattern
      · have hserve : protocolServer iteration (some (pattern, cursor, page :: rest))
            (scanArgs cursor.toNat pattern) =
              (some (pattern, page.cursor, rest), some page.reply) := if_pos rfl
        rw [hasked] at hformat
        rcases List.cons.inj (List.cons.inj hasked).right with ⟨hcursor, hargs⟩
        refine ⟨Text.decimal_injective hcursor, congrArg some (List.cons.inj hargs).right, ?_⟩
        rw [scanLoop, scanOnce_page hformat (congrArg Prod.snd hserve) listOut, hserve] at h
        rcases Option.bind_eq_some_iff.mp h with ⟨once, hmap, hnext⟩
        rcases Option.map_eq_some_iff.mp hmap with ⟨here, hhere, hEq⟩
        refine ⟨here, hhere, ?_⟩
        rw [← hEq] at hnext
        dsimp only at hnext
        split
        · rename_i hlast
          rw [if_pos ((atoi_cursor_eq_zero_iff _).mpr hlast)] at hnext
          exact (congrArg Prod.snd (Option.some.inj hnext)).symm
        · rename_i hlast
          rw [if_neg (fun hzero => hlast ((atoi_cursor_eq_zero_iff _).mp hzero))] at hnext
          exact hnext
      · have hserve : protocolServer iteration (some (pattern, cursor, page :: rest))
            ("SCAN".toList :: Text.decimal iIndex.toNat :: "MATCH".toList :: args) =
              (some (pattern, cursor, []), some stuckPage.reply) := if_neg hasked
        rw [scanLoop, scanOnce_page hformat (congrArg Prod.snd hserve) listOut, hserve] at h
        have hstuck : scanLoop (protocolServer iteration) strKey fuel
            (some (pattern, cursor, [])) 1 (listOut ++ []) = some scanned := h
        rw [scanLoop_stuck rfl] at hstuck
        cases hstuck

/-- The induction is on the pages: the cursor of a page is one that came back. -/
theorem scanLoop_serveNext {strKey pattern : Text} {pages : List Page} (hends : Ends pages)
    {fuel : Nat} {cursor : uint64_t} {iIndex : uint32_t} {listOut : List uint64_t}
    {scanned : Option Iterating × List uint64_t}
    (h : scanLoop (protocolServer iteration) strKey fuel (some (pattern, cursor, pages)) iIndex
      listOut = some scanned) :
    iIndex.toNat = cursor.toNat ∧ patternArgs strKey = some [pattern] ∧
      (forall page, page ∈ pages -> page.cursor.toNat < 2 ^ 31) ∧
      exists listKey, (pages.flatMap Page.keys).mapM (indexOf strKey) = some listKey ∧
        scanned.2 = listOut ++ listKey := by
  induction pages generalizing fuel cursor iIndex listOut with
  | nil => exact False.elim hends
  | cons page rest ih =>
      cases fuel with
      | zero => cases h
      | succ fuel =>
          rcases scanLoop_asks h with ⟨hcursor, hpattern, here, hhere, hnext⟩
          refine ⟨hcursor, hpattern, ?_⟩
          rw [List.flatMap_cons, List.mapM_append, hhere]
          unfold Ends at hends
          by_cases hlast : page.cursor = 0
          · rw [if_pos hlast] at hends hnext
            rw [hends]
            refine ⟨?_, here ++ [], rfl, ?_⟩
            · intro last hmem
              rw [List.mem_singleton.mp hmem, hlast]
              decide
            · rw [hnext, List.append_nil]
          · rw [if_neg hlast] at hends hnext
            rcases ih hends hnext with ⟨hsame, _, hsmall, later, hlater, hout⟩
            rw [hlater]
            refine ⟨?_, here ++ later, rfl, ?_⟩
            · intro other hmem
              rcases List.mem_cons.mp hmem with hfirst | hrest
              · rw [hfirst]
                by_contra hlarge
                rw [StringValue.atoi_large (Nat.le_of_not_lt hlarge)] at hsame
                exact hlarge (hsame ▸ by decide)
              · exact hsmall other hrest
            · rw [hout, List.append_assoc]

theorem scanLoop_protocol {strKey : Text} (hends : forall pattern, Ends (iteration pattern))
    {fuel : Nat} {scanned : Option Iterating × List uint64_t}
    (h : scanLoop (protocolServer iteration) strKey fuel none 0 [] = some scanned) :
    exists pattern, patternArgs strKey = some [pattern] ∧
      (forall page, page ∈ iteration pattern -> page.cursor.toNat < 2 ^ 31) ∧
      ((iteration pattern).flatMap Page.keys).mapM (indexOf strKey) = some scanned.2 := by
  cases fuel with
  | zero => cases h
  | succ fuel =>
      have hformat := format_scanText strKey 0
      cases hpattern : patternArgs strKey with
      | none =>
          rw [scanLoop_unformatted hpattern] at h
          cases h
      | some args =>
          rw [hpattern, Option.map_some] at hformat
          by_cases hone : exists pattern, args = [pattern]
          · rcases hone with ⟨pattern, hargs⟩
            rw [hargs] at hformat ⊢
            have hstart : scanLoop (protocolServer iteration) strKey (fuel + 1) none 0 [] =
                scanLoop (protocolServer iteration) strKey (fuel + 1)
                  (some (pattern, 0, iteration pattern)) 0 [] := by
              unfold scanLoop ScanOnce DoCmd
              rw [hformat]
              rfl
            rw [hstart] at h
            rcases scanLoop_serveNext (hends pattern) h with ⟨_, _, hsmall, listKey, hkeys, hout⟩
            refine ⟨pattern, rfl, hsmall, ?_⟩
            rw [hkeys, hout, List.nil_append]
          · have hserve : protocolServer iteration none
                ("SCAN".toList :: Text.decimal (0 : uint32_t).toNat :: "MATCH".toList :: args) =
                  (some ([], 0, []), some stuckPage.reply) := by
              rcases args with _ | ⟨pattern, _ | ⟨second, more⟩⟩
              · rfl
              · exact absurd ⟨pattern, rfl⟩ hone
              · rfl
            rw [scanLoop, scanOnce_page hformat (congrArg Prod.snd hserve) [], hserve] at h
            have hstuck : scanLoop (protocolServer iteration) strKey fuel (some ([], 0, [])) 1
                ([] ++ []) = some scanned := h
            rw [scanLoop_stuck rfl] at hstuck
            cases hstuck

/-!
# What is found

The indices are read with a function for signed numbers.
-/

theorem indexOf_eq_some {strKey : Text} (hzero : '\x00' ∉ strKey) {key : Text} {iKey : uint64_t}
    (h : indexOf strKey key = some iKey) :
    strKey <+: key := by
  unfold indexOf StringValue.GetKey64 at h
  rcases Option.map_eq_some_iff.mp h with ⟨rest, hrest, _⟩
  rw [cStr_eq_self hzero] at hrest
  have hprefix : strKey <+: cStr key := ⟨rest, (StringValue.subString_iff.mp hrest).left.symm⟩
  exact hprefix.trans (List.takeWhile_prefix _)

theorem indexOf_decimal {strKey : Text} (hzero : '\x00' ∉ strKey) (i : uint64_t) :
    indexOf strKey (strKey ++ Text.decimal i.toNat) =
      some (if i.toNat < 2 ^ 63 then i else BitVec.ofNat 64 (2 ^ 63 - 1)) := by
  have hsub : StringValue.SubString (strKey ++ Text.decimal i.toNat) strKey =
      some (Text.decimal i.toNat) := StringValue.subString_iff.mpr ⟨rfl, Text.decimal_ne_nil _⟩
  unfold indexOf StringValue.GetKey64
  rw [cStr_append hzero, cStr_decimal, cStr_eq_self hzero, hsub, Option.map_some,
    StringValue._atoi64_decimal]

theorem mapM_eq_some_iff {key value : Type} {f : key -> Option value} {list : List key}
    {values : List value} : list.mapM f = some values <-> list.map f = values.map some := by
  induction list generalizing values with
  | nil => cases values <;> simp
  | cons first list ih =>
      cases hfirst : f first with
      | none => cases values <;> simp [hfirst]
      | some v =>
          cases hrest : list.mapM f with
          | none =>
              have hnone : forall values : List value, list.map f ≠ values.map some :=
                fun values hmap => by rw [ih.mpr hmap] at hrest; cases hrest
              cases values <;> simp [hfirst, hrest, hnone]
          | some rest =>
              have hmap := ih.mp hrest
              cases values <;> simp [hfirst, hrest, hmap, List.map_inj_right]

end

/-!
# Which elements are listed
-/

def Stored (store : RedisStore) (sKey : Text) (i64Key i : uint64_t) : Prop :=
  store (elementHash i64Key i sKey) ≠ none

/-- What stands behind the name and the first key is a decimal index. -/
def OnlyIndices (store : RedisStore) (sKey : Text) (i64Key : uint64_t) : Prop :=
  forall key, store key ≠ none -> scanPrefix sKey i64Key <+: key ->
    exists i, key = elementHash i64Key i sKey

/-- The pattern arrives as one argument that means what it should, no cursor is too large for
`atoi` and no index for `_atoi64`. -/
structure Enumerable (store : RedisStore) (globs : Text -> Text -> Prop)
    (iteration : Text -> List Page) (sKey : Text) (i64Key : uint64_t) : Prop where
  pattern : exists pattern, patternArgs (scanPrefix sKey i64Key) = some [pattern] ∧
    (forall key, store key ≠ none -> (globs pattern key <-> scanPrefix sKey i64Key <+: key)) ∧
    forall page, page ∈ iteration pattern -> page.cursor.toNat < 2 ^ 31
  indices : forall i, Stored store sKey i64Key i -> i.toNat < 2 ^ 63

section

variable {store : RedisStore} {globs : Text -> Text -> Prop} {iteration : Text -> List Page}
  {sKey : Text} {i64Key : uint64_t}

theorem zero_not_mem_scanPrefix (hzero : '\x00' ∉ sKey) :
    '\x00' ∉ scanPrefix sKey i64Key := by
  have hcolon : '\x00' ≠ ':' := by decide
  have hdecimal : '\x00' ∉ Text.decimal i64Key.toNat := Text.not_mem_decimal (by decide) _
  unfold scanPrefix
  rw [List.mem_append, List.mem_cons, List.mem_append, List.mem_singleton]
  rintro (hmem | hmem | hmem | hmem)
  · exact hzero hmem
  · exact hcolon hmem
  · exact hdecimal hmem
  · exact hcolon hmem

theorem indexOf_elementHash (hzero : '\x00' ∉ sKey) (i : uint64_t) :
    indexOf (scanPrefix sKey i64Key) (elementHash i64Key i sKey) =
      some (if i.toNat < 2 ^ 63 then i else BitVec.ofNat 64 (2 ^ 63 - 1)) := by
  rw [DataTransfer.elementHash_eq, indexOf_decimal (zero_not_mem_scanPrefix hzero)]

/-- Every match is an element, or its index could not have been read. -/
theorem prefix_of_matched (hcomplete : Complete store globs iteration) (hzero : '\x00' ∉ sKey)
    {pattern : Text} {listKey : List uint64_t}
    (hkeys : ((iteration pattern).flatMap Page.keys).mapM (indexOf (scanPrefix sKey i64Key)) =
      some listKey) {key : Text} (hstored : store key ≠ none) (hglobs : globs pattern key) :
    scanPrefix sKey i64Key <+: key := by
  have hmem := (hcomplete.keys pattern key).mpr ⟨hstored, hglobs⟩
  have hread := List.mem_map_of_mem (f := indexOf (scanPrefix sKey i64Key)) hmem
  rw [mapM_eq_some_iff.mp hkeys] at hread
  rcases List.mem_map.mp hread with ⟨i, _, hi⟩
  exact indexOf_eq_some (zero_not_mem_scanPrefix hzero) hi.symm

theorem mem_listed_iff (hcomplete : Complete store globs iteration) (hzero : '\x00' ∉ sKey)
    (honly : OnlyIndices store sKey i64Key) {pattern : Text} {listKey : List uint64_t}
    (hkeys : ((iteration pattern).flatMap Page.keys).mapM (indexOf (scanPrefix sKey i64Key)) =
      some listKey) (i : uint64_t) :
    i ∈ listKey <-> exists j, Stored store sKey i64Key j ∧
      globs pattern (elementHash i64Key j sKey) ∧
        (if j.toNat < 2 ^ 63 then j else BitVec.ofNat 64 (2 ^ 63 - 1)) = i := by
  have hmap := mapM_eq_some_iff.mp hkeys
  constructor
  · intro hmem
    have hread := List.mem_map_of_mem (f := some) hmem
    rw [← hmap] at hread
    rcases List.mem_map.mp hread with ⟨key, hkey, hi⟩
    rcases (hcomplete.keys pattern key).mp hkey with ⟨hstored, hglobs⟩
    rcases honly key hstored (prefix_of_matched hcomplete hzero hkeys hstored hglobs) with ⟨j, hj⟩
    rw [hj, indexOf_elementHash hzero] at hi
    rw [hj] at hstored hglobs
    exact ⟨j, hstored, hglobs, Option.some.inj hi⟩
  · rintro ⟨j, hstored, hglobs, hi⟩
    have hmem := (hcomplete.keys pattern _).mpr ⟨hstored, hglobs⟩
    have hread := List.mem_map_of_mem (f := indexOf (scanPrefix sKey i64Key)) hmem
    rw [hmap, indexOf_elementHash hzero, hi] at hread
    rcases List.mem_map.mp hread with ⟨k, hk, hEq⟩
    exact Option.some.inj hEq ▸ hk

/-- The keys of the pages have the indices of the elements. -/
theorem enumerable_keys (hcomplete : Complete store globs iteration) (hzero : '\x00' ∉ sKey)
    (honly : OnlyIndices store sKey i64Key) {pattern : Text}
    (hglobs : forall key, store key ≠ none ->
      (globs pattern key <-> scanPrefix sKey i64Key <+: key))
    (hindices : forall i, Stored store sKey i64Key i -> i.toNat < 2 ^ 63) :
    exists listKey, ((iteration pattern).flatMap Page.keys).mapM
        (indexOf (scanPrefix sKey i64Key)) = some listKey ∧
      forall i, i ∈ listKey <-> Stored store sKey i64Key i := by
  have hread : forall key, key ∈ (iteration pattern).flatMap Page.keys ->
      indexOf (scanPrefix sKey i64Key) key =
        some ((indexOf (scanPrefix sKey i64Key) key).getD 0) := by
    intro key hkey
    rcases (hcomplete.keys pattern key).mp hkey with ⟨hstored, hmatch⟩
    rcases honly key hstored ((hglobs key hstored).mp hmatch) with ⟨j, hj⟩
    rw [hj, indexOf_elementHash hzero]
    rfl
  have hkeys : ((iteration pattern).flatMap Page.keys).mapM (indexOf (scanPrefix sKey i64Key)) =
      some (((iteration pattern).flatMap Page.keys).map
        (fun key => (indexOf (scanPrefix sKey i64Key) key).getD 0)) := by
    rw [mapM_eq_some_iff, List.map_map]
    exact List.map_congr_left hread
  refine ⟨_, hkeys, ?_⟩
  intro i
  rw [mem_listed_iff hcomplete hzero honly hkeys]
  constructor
  · rintro ⟨j, hstored, _, hi⟩
    rw [if_pos (hindices j hstored)] at hi
    exact hi ▸ hstored
  · intro hstored
    refine ⟨i, hstored, (hglobs _ hstored).mpr ?_, if_pos (hindices i hstored)⟩
    rw [DataTransfer.elementHash_eq]
    exact List.prefix_append _ _

/-- The indices that are listed are the indices there are: then they are small, and the pattern
finds what it should. -/
theorem enumerable_of_listed (hcomplete : Complete store globs iteration)
    (hzero : '\x00' ∉ sKey) (honly : OnlyIndices store sKey i64Key) {pattern : Text}
    (hpattern : patternArgs (scanPrefix sKey i64Key) = some [pattern])
    (hsmall : forall page, page ∈ iteration pattern -> page.cursor.toNat < 2 ^ 31)
    {listKey : List uint64_t}
    (hkeys : ((iteration pattern).flatMap Page.keys).mapM (indexOf (scanPrefix sKey i64Key)) =
      some listKey)
    (hlisted : forall i, Stored store sKey i64Key i -> i ∈ listKey) :
    Enumerable store globs iteration sKey i64Key := by
  have hmem := mem_listed_iff hcomplete hzero honly hkeys
  have hindices : forall i, Stored store sKey i64Key i -> i.toNat < 2 ^ 63 := by
    intro i hstored
    rcases (hmem i).mp (hlisted i hstored) with ⟨j, _, _, hi⟩
    rw [← hi]
    split
    · assumption
    · decide
  refine ⟨⟨pattern, hpattern, ?_, hsmall⟩, hindices⟩
  intro key hstored
  constructor
  · exact prefix_of_matched hcomplete hzero hkeys hstored
  · intro hprefix
    rcases honly key hstored hprefix with ⟨i, hkey⟩
    rw [hkey] at hstored ⊢
    rcases (hmem i).mp (hlisted i hstored) with ⟨j, hother, hglobs, hi⟩
    rw [if_pos (hindices j hother)] at hi
    exact hi ▸ hglobs

end

/-!
# Both ways to list them
-/

/-- `GetAllKey` comes to its end with the indices of the elements. -/
def AllKeysListed (mgr : KeyFieldMgr) (iRediskey : uint32_t) (store : RedisStore)
    (iteration : Text -> List Page) (sKey : Text) (i64Key : uint64_t) : Prop :=
  forall (world : Type) (server : RedisServer world) (state : world),
    ScanContract server state iteration ->
    exists fuel last listOut,
      GetAllKey (some server) mgr fuel state i64Key iRediskey = some (last, .ok listOut) ∧
        forall i, i ∈ listOut <-> Stored store sKey i64Key i

/-- `ScanKey` comes to its end and adds the indices of the elements. -/
def KeysAdded (store : RedisStore) (iteration : Text -> List Page) (sKey : Text)
    (i64Key : uint64_t) : Prop :=
  forall (world : Type) (server : RedisServer world) (state : world) (listKey : List uint64_t),
    ScanContract server state iteration ->
    exists fuel last listOut,
      ScanKey server fuel state i64Key sKey listKey = some (last, listOut) ∧
        forall i, i ∈ listOut <-> i ∈ listKey ∨ Stored store sKey i64Key i

section

variable {store : RedisStore} {globs : Text -> Text -> Prop} {iteration : Text -> List Page}
  {sKey : Text} {i64Key : uint64_t}

theorem scanLoop_enumerable {world : Type} {server : RedisServer world} {state : world}
    (hcomplete : Complete store globs iteration) (hzero : '\x00' ∉ sKey)
    (honly : OnlyIndices store sKey i64Key)
    (henumerable : Enumerable store globs iteration sKey i64Key)
    (hserver : ScanContract server state iteration) :
    exists fuel last listKey,
      scanLoop server (scanPrefix sKey i64Key) fuel state 0 [] = some (last, listKey) ∧
        forall i, i ∈ listKey <-> Stored store sKey i64Key i := by
  rcases henumerable with ⟨⟨pattern, hpattern, hglobs, hsmall⟩, hindices⟩
  rcases enumerable_keys hcomplete hzero honly hglobs hindices with ⟨listKey, hkeys, hlisted⟩
  have hstart : (0 : uint32_t).toNat = (0 : uint64_t).toNat := rfl
  rcases scanLoop_follows hpattern hsmall hkeys (hserver pattern) hstart [] with
    ⟨fuel, last, hloop⟩
  exact ⟨fuel, last, listKey, hloop, hlisted⟩

theorem getAllKey_lists_iff (hcomplete : Complete store globs iteration)
    (hzero : '\x00' ∉ sKey) (honly : OnlyIndices store sKey i64Key) {mgr : KeyFieldMgr}
    {iRediskey : uint32_t} (hname : mgr.FindKey iRediskey = some sKey) :
    AllKeysListed mgr iRediskey store iteration sKey i64Key <->
      Enumerable store globs iteration sKey i64Key := by
  constructor
  · intro hlists
    rcases hlists _ _ _ (protocolServer_contract hcomplete.ends) with
      ⟨fuel, last, listOut, hrun, hlisted⟩
    unfold GetAllKey at hrun
    rw [hname] at hrun
    rcases Option.map_eq_some_iff.mp hrun with ⟨scanned, hloop, hEq⟩
    cases hEq
    rcases scanLoop_protocol hcomplete.ends hloop with ⟨pattern, hpattern, hsmall, hkeys⟩
    exact enumerable_of_listed hcomplete hzero honly hpattern hsmall hkeys
      (fun i => (hlisted i).mpr)
  · intro henumerable world server state hserver
    rcases scanLoop_enumerable hcomplete hzero honly henumerable hserver with
      ⟨fuel, last, listKey, hloop, hlisted⟩
    refine ⟨fuel, last, listKey, ?_, hlisted⟩
    unfold GetAllKey
    rw [hname]
    dsimp only
    rw [hloop]
    rfl

theorem scanKey_lists_iff (hcomplete : Complete store globs iteration)
    (hzero : '\x00' ∉ sKey) (honly : OnlyIndices store sKey i64Key) :
    KeysAdded store iteration sKey i64Key <->
      Enumerable store globs iteration sKey i64Key ∧ forall i, ¬ Stored store sKey i64Key i := by
  constructor
  · intro hlists
    rcases hlists _ _ _ [] (protocolServer_contract hcomplete.ends) with
      ⟨fuel, last, listOut, hrun, hlisted⟩
    have hnil := scanKey_listKey hrun
    dsimp only at hnil
    rw [hnil] at hlisted
    have hnone : forall i, ¬ Stored store sKey i64Key i :=
      fun i hstored => List.not_mem_nil ((hlisted i).mpr (Or.inr hstored))
    refine ⟨?_, hnone⟩
    rcases Option.map_eq_some_iff.mp hrun with ⟨scanned, hloop, _⟩
    rcases scanLoop_protocol hcomplete.ends hloop with ⟨pattern, hpattern, hsmall, hkeys⟩
    exact enumerable_of_listed hcomplete hzero honly hpattern hsmall hkeys
      (fun i hstored => absurd hstored (hnone i))
  · rintro ⟨henumerable, hnone⟩ world server state listKey hserver
    rcases scanLoop_enumerable hcomplete hzero honly henumerable hserver with
      ⟨fuel, last, listOut, hloop, _⟩
    refine ⟨fuel, last, listKey, ?_, fun i => ⟨Or.inl, ?_⟩⟩
    · unfold ScanKey
      rw [hloop]
      rfl
    · rintro (hmem | hstored)
      · exact hmem
      · exact absurd hstored (hnone i)

theorem elements_enumerated_iff (hcomplete : Complete store globs iteration)
    (hzero : '\x00' ∉ sKey) (honly : OnlyIndices store sKey i64Key) {mgr : KeyFieldMgr}
    {iRediskey : uint32_t} (hname : mgr.FindKey iRediskey = some sKey) :
    (AllKeysListed mgr iRediskey store iteration sKey i64Key <->
        Enumerable store globs iteration sKey i64Key) ∧
      (KeysAdded store iteration sKey i64Key <->
        Enumerable store globs iteration sKey i64Key ∧
          forall i, ¬ Stored store sKey i64Key i) :=
  ⟨getAllKey_lists_iff hcomplete hzero honly hname, scanKey_lists_iff hcomplete hzero honly⟩

end

/-!
# One element

Patterns that end with a star, and no other special characters.
-/

def starGlobs (pattern key : Text) : Prop := pattern.dropLast <+: key

instance (pattern key : Text) : Decidable (starGlobs pattern key) :=
  inferInstanceAs (Decidable (pattern.dropLast <+: key))

def oneElement : RedisStore := fun key =>
  if key = "user:5:7".toList then some .other else none

/-- The keys are on the last page, which has the cursor 0. -/
def pagesWith (cursors : List uint64_t) (pattern : Text) : List Page :=
  cursors.map (fun cursor => { cursor := cursor, keys := [] }) ++
    [{ cursor := 0, keys := ["user:5:7".toList].filter (starGlobs pattern) }]

theorem pagesWith_complete {cursors : List uint64_t}
    (hcursors : forall cursor, cursor ∈ cursors -> cursor ≠ 0) :
    Complete oneElement starGlobs (pagesWith cursors) := by
  constructor
  · intro pattern
    unfold pagesWith
    induction cursors with
    | nil => rfl
    | cons cursor cursors ih =>
        show if cursor = 0 then _ else _
        rw [if_neg (hcursors cursor List.mem_cons_self)]
        exact ih (fun other hmem => hcursors other (List.mem_cons_of_mem _ hmem))
  · intro pattern key
    have hempty : (cursors.map (fun cursor => ({ cursor := cursor, keys := [] } : Page))).flatMap
        Page.keys = [] := by
      rw [List.flatMap_map, List.flatMap_eq_nil_iff]
      exact fun cursor _ => rfl
    unfold pagesWith oneElement
    rw [List.flatMap_append, hempty, List.nil_append, List.flatMap_singleton]
    by_cases hkey : key = "user:5:7".toList
    · rw [hkey]
      simp
    · rw [if_neg hkey]
      constructor
      · intro hmem
        exact absurd (List.mem_singleton.mp (List.mem_filter.mp hmem).left) hkey
      · rintro ⟨hnone, _⟩
        exact absurd rfl hnone

theorem oneElement_onlyIndices : OnlyIndices oneElement "user".toList 5 := by
  intro key hstored _
  by_cases hkey : key = "user:5:7".toList
  · exact ⟨7, hkey⟩
  · exact absurd (if_neg hkey) hstored

theorem oneElement_enumerated :
    (AllKeysListed (oneFieldMgr "rate".toList) 0x100 oneElement (pagesWith []) "user".toList 5 <->
        Enumerable oneElement starGlobs (pagesWith []) "user".toList 5) ∧
      (KeysAdded oneElement (pagesWith []) "user".toList 5 <->
        Enumerable oneElement starGlobs (pagesWith []) "user".toList 5 ∧
          forall i, ¬ Stored oneElement "user".toList 5 i) :=
  elements_enumerated_iff (pagesWith_complete (fun _ hmem => absurd hmem List.not_mem_nil))
    (by decide) oneElement_onlyIndices (by decide)

/-- `ScanKey` does not add the element that there is, and `GetAllKey` does not come to its end
if a cursor is too large. -/
theorem oneElement_not_listed :
    Complete oneElement starGlobs (pagesWith []) ∧
      Complete oneElement starGlobs (pagesWith [0x80000000]) ∧
      OnlyIndices oneElement "user".toList 5 ∧
      (oneFieldMgr "rate".toList).FindKey 0x100 = some "user".toList ∧
      ¬ KeysAdded oneElement (pagesWith []) "user".toList 5 ∧
      ¬ AllKeysListed (oneFieldMgr "rate".toList) 0x100 oneElement (pagesWith [0x80000000])
        "user".toList 5 := by
  have hone : Complete oneElement starGlobs (pagesWith []) :=
    pagesWith_complete (fun _ hmem => absurd hmem List.not_mem_nil)
  have htwo : Complete oneElement starGlobs (pagesWith [0x80000000]) :=
    pagesWith_complete (fun cursor hmem => List.mem_singleton.mp hmem ▸ by decide)
  have hname : (oneFieldMgr "rate".toList).FindKey 0x100 = some "user".toList := by decide
  refine ⟨hone, htwo, oneElement_onlyIndices, hname, ?_, ?_⟩
  · rw [scanKey_lists_iff hone (by decide) oneElement_onlyIndices]
    intro h
    have hstored : Stored oneElement "user".toList 5 7 := by
      unfold Stored oneElement
      rw [if_pos (by decide)]
      exact Option.some_ne_none _
    exact h.right 7 hstored
  · rw [getAllKey_lists_iff htwo (by decide) oneElement_onlyIndices hname]
    rintro ⟨⟨pattern, _, _, hsmall⟩, _⟩
    exact absurd (hsmall _ List.mem_cons_self) (by decide)

end DataHandle
end GMServer
