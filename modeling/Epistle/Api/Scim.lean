import Epistle.DirectoryStore.Store

/-!
# Listing users by SCIM

A provisioning client lists the users page by page: it asks for `count` of them from `startIndex`
on, until it has read as many as `totalResults` says there are.

The server reads the parameter under the name of its own field, `start_index`, so that every page is
the first one; and it gives the length of the page as the total. A client stops after the first
page, and has read all users exactly if they fit on it (`listsAll_iff`).
-/

namespace Epistle.Api

open TextFormat DirectoryStore

/-- `ScimError::invalid`, with its text. -/
inductive ScimError
  | invalid (detail : Text)
  deriving DecidableEq

structure User where
  userName : Text
  active : Bool
  /-- The addresses, and whether they are the primary one. -/
  emails : List (Text × Bool)
  deriving DecidableEq

def renderUser (account : DynamicAccount) : User where
  userName := account.name
  active := !account.disabled
  emails := account.addresses.mapIdx fun index value ↦ (value, index == 0)

structure ListQuery where
  filter : Option Text
  startIndex : Option ℕ
  count : Option ℕ

/-- A field of type `u64` that may be missing. -/
def readField (pairs : List (Text × Text)) (key : String) : Option (Option ℕ) :=
  match pairs.lookup key.toList with
  | none => some none
  | some value => ((parseDecimal value).filter (· < 2 ^ 64)).map some

/-- The query of a request. The fields are read under their names in the program, and other
parameters are ignored. -/
def ListQuery.deserialize (pairs : List (Text × Text)) : Option ListQuery := do
  let startIndex ← readField pairs "start_index"
  let count ← readField pairs "count"
  pure ⟨pairs.lookup "filter".toList, startIndex, count⟩

def unescape : Text → Except ScimError Text
  | [] => .ok []
  | '\\' :: '"' :: rest => (unescape rest).map ('"' :: ·)
  | '\\' :: '\\' :: rest => (unescape rest).map ('\\' :: ·)
  | ['\\'] => .error (.invalid "dangling filter escape".toList)
  | '\\' :: other :: _ =>
    .error (.invalid ("unsupported filter escape \"\\".toList ++ [other, '"']))
  | c :: rest => (unescape rest).map (c :: ·)

def stripStart (start t : Text) : Option Text :=
  if start.isPrefixOf t then some (t.drop start.length) else none

/-- Parse `userName eq "value"` exactly. -/
def parseUserNameEq (filter : Text) : Except ScimError Text :=
  let quoted := ScimError.invalid "filter value must be a quoted string".toList
  match stripStart "eq".toList (trim ((stripStart "userName".toList (trim filter)).getD [])) with
  | none => .error (.invalid "only `userName eq \"x\"` is supported".toList)
  | some rest => match trim rest with
    | '"' :: inner => match (trimEnd inner).reverse with
      | '"' :: value => do
        let out ← unescape value.reverse
        if out.isEmpty then .error (.invalid "filter value must not be empty".toList) else pure out
      | _ => .error quoted
    | _ => .error quoted

structure ListResponse where
  totalResults : ℕ
  resources : List User
  startIndex : ℕ
  itemsPerPage : ℕ
  deriving DecidableEq

def ListResponse.singlePage (startIndex itemsPerPage : ℕ) (users : List User) : ListResponse where
  totalResults := users.length
  resources := users
  startIndex := startIndex
  itemsPerPage := itemsPerPage

/-- The accounts that a listing is about. -/
def matched (filter : Option Text) (users : List DynamicAccount) :
    Except ScimError (List DynamicAccount) :=
  match filter with
  | none => .ok users
  | some filter => do
    let needle ← parseUserNameEq filter
    pure (users.filter fun account ↦ account.name == needle)

def listUsers (users : List DynamicAccount) (query : ListQuery) :
    Except ScimError ListResponse := do
  let startIndex := max (query.startIndex.getD 1) 1
  let count := max 1 (min (query.count.getD 100) 200)
  let found ← matched query.filter users
  let rendered := ((found.drop (startIndex - 1)).take count).map renderUser
  pure (.singlePage startIndex rendered.length rendered)

/-! ## The client -/

section

variable (users : List DynamicAccount) (filter : Option Text) (count : ℕ)

/-- `GET /Users?filter=...&startIndex=...&count=...` -/
def page (startIndex : ℕ) : Option ListResponse :=
  ListQuery.deserialize ((filter.map fun text ↦ ("filter".toList, text)).toList ++
    [("startIndex".toList, decimal startIndex), ("count".toList, decimal count)]) >>= fun query ↦
      (listUsers users query).toOption

/-- Read pages from `startIndex` on until as many users are read as there are in total, with at most
`fuel` requests. -/
def readPages : (fuel startIndex : ℕ) → List User → Option (List User)
  | 0, _, _ => none
  | fuel + 1, startIndex, read => (page users filter count startIndex).bind fun response ↦
    if response.totalResults ≤ (read ++ response.resources).length then
      some (read ++ response.resources)
    else readPages fuel (startIndex + count) (read ++ response.resources)

/-- The pages have all the users that match, each of them once, and say how many there are. -/
structure ListsAll (found : List DynamicAccount) : Prop where
  complete : ∃ fuel read, readPages users filter count fuel 1 [] = some read ∧
    read.Perm (found.map renderUser)
  total : ∀ startIndex, ∃ response, page users filter count startIndex = some response ∧
    response.totalResults = found.length

variable {users filter count}

/-- Every page is the first one. -/
theorem page_eq {found : List DynamicAccount} (hfound : matched filter users = .ok found)
    (hpos : 0 < count) (hmax : count ≤ 200) (startIndex : ℕ) : page users filter count startIndex =
      some (.singlePage 1 ((found.take count).map renderUser).length
        ((found.take count).map renderUser)) := by
  have hcount : (parseDecimal (decimal count)).filter (· < 2 ^ 64) = some count := by
    rw [parseDecimal_decimal, Option.filter_some, if_pos (decide_eq_true (by omega))]
  have hquery : ListQuery.deserialize ((filter.map fun text ↦ ("filter".toList, text)).toList ++
      [("startIndex".toList, decimal startIndex), ("count".toList, decimal count)]) =
        some ⟨filter, none, some count⟩ := by
    cases filter <;> simp [-parseDecimal_decimal, -Nat.reducePow, ListQuery.deserialize, readField,
      List.lookup, hcount]
  have hclamp : max 1 (min count 200) = count := by omega
  rw [page, hquery]
  change (listUsers users ⟨filter, none, some count⟩).toOption = _
  rw [listUsers, hfound]
  simp only [Option.getD_none, Option.getD_some, hclamp]
  rfl

/-- **A listing is complete exactly if it fits on one page.** -/
theorem listsAll_iff {found : List DynamicAccount} (hfound : matched filter users = .ok found)
    (hpos : 0 < count) (hmax : count ≤ 200) :
    ListsAll users filter count found ↔ found.length ≤ count := by
  have hpage := page_eq hfound hpos hmax
  have htotal : ((found.take count).map renderUser).length = min count found.length := by
    rw [List.length_map, List.length_take]
  constructor
  · intro hlists
    obtain ⟨response, hresponse, hlength⟩ := hlists.total 1
    rw [hpage 1] at hresponse
    rw [← Option.some.inj hresponse] at hlength
    exact min_eq_right_iff.1 (htotal.symm.trans hlength)
  · intro hfits
    rw [List.take_of_length_le hfits] at hpage
    refine ⟨⟨1, found.map renderUser, ?_, .refl _⟩, fun startIndex ↦ ⟨_, hpage startIndex, ?_⟩⟩
    · rw [readPages, hpage]
      exact if_pos (le_refl _)
    · exact List.length_map _

/-- Two accounts. -/
def annaAndBert : List DynamicAccount :=
  ["anna", "bert"].map fun name ↦ ⟨name.toList, [], [], none, none, false, none⟩

theorem listsAll_annaAndBert : ListsAll annaAndBert none 2 annaAndBert :=
  (listsAll_iff rfl (by decide) (by decide)).2 (by decide)

/-- With pages of one user the client ends with one of the two. -/
theorem readPages_annaAndBert : readPages annaAndBert none 1 3 1 [] =
      some [⟨"anna".toList, true, []⟩] ∧
    (page annaAndBert none 1 2).map (fun response ↦ (response.resources, response.totalResults)) =
      some ([⟨"anna".toList, true, []⟩], 1) := by
  decide

end

end Epistle.Api
