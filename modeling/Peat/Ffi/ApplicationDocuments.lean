/-
  PAGES OF APPLICATION DOCUMENTS (`node_query_application_documents` and its cursors in
  peat-ffi/src/lib.rs).

  What the node finds in the collection is an input of each request. Ids are compared by
  bytes in the source and by characters here, which is one order. Without equal ids the
  unstable sort has one result.
-/
import Mathlib.Data.String.Basic
import Peat.Lib.JsonText
import Peat.Lib.Paging
import Peat.Security.CertificateFormat

namespace Peat.Ffi

open Peat.Lib Peat.Lib.Paging Peat.Security

/-! ## 1. Keys and cursors -/

inductive PeatError where
  | invalidInput (msg : String)
  | storageError (msg : String)
  | encodingError (msg : String)
  deriving DecidableEq

def maxApplicationCollectionLen : Nat := 128
def maxApplicationDocumentIdLen : Nat := 256
def maxApplicationQueryLimit : Nat := 100
def maxApplicationDocumentBytes : Nat := 1024 * 1024
def maxApplicationPageBytes : Nat := 4 * 1024 * 1024
def maxApplicationCursorLen : Nat := 1024

def keyByte (b : UInt8) : Bool :=
  48 ≤ b && b ≤ 57 || 65 ≤ b && b ≤ 90 || 97 ≤ b && b ≤ 122 || b == 46 || b == 95 || b == 45

def validateApplicationKey (kind value : String) (maxLen : Nat) : Except PeatError Unit :=
  if value = "" ∨ maxLen < value.utf8ByteSize then
    .error (.invalidInput (kind ++ " must be 1..=" ++ toString maxLen ++ " bytes"))
  else if (bytesOf value).all keyByte = false then
    .error (.invalidInput (kind ++ " contains unsupported characters"))
  else .ok ()

def hexEncode (bytes : List UInt8) : List Char :=
  bytes.flatMap fun b => [(b.toNat / 16).digitChar, (b.toNat % 16).digitChar]

def hexDecode : List Char → Option (List UInt8)
  | [] => some []
  | [_] => none
  | c :: d :: rest =>
    match hexValue c, hexValue d, hexDecode rest with
    | some high, some low, some bytes => some (UInt8.ofNat (16 * high + low) :: bytes)
    | _, _, _ => none

def applicationCursor (collection lastId : String) : String :=
  String.ofList (['v', '1'] ++ '.' :: (hexEncode (bytesOf collection) ++
    '.' :: hexEncode (bytesOf lastId)))

def parseApplicationCursor (collection cursor : String) : Except PeatError String :=
  if cursor = "" ∨ maxApplicationCursorLen < cursor.utf8ByteSize then
    .error (.invalidInput "cursor has an invalid length")
  else
    match cursor.toList.splitOn '.' with
    | [version, encodedCollection, encodedId] =>
      if version ≠ ['v', '1'] then .error (.invalidInput "cursor version is unsupported")
      else
        match (hexDecode encodedCollection).bind fromUtf8 with
        | none => .error (.invalidInput "cursor collection is malformed")
        | some cursorCollection =>
          if cursorCollection ≠ collection then
            .error (.invalidInput "cursor belongs to a different collection")
          else
            match (hexDecode encodedId).bind fromUtf8 with
            | none => .error (.invalidInput "cursor document id is malformed")
            | some lastId =>
              (validateApplicationKey "cursor document id" lastId maxApplicationDocumentIdLen).map
                fun _ => lastId
    | _ => .error (.invalidInput "cursor has an invalid shape")

/-! ## 2. Reading a page -/

structure MeshDocument (φ : Type*) where
  id : Option String
  fields : φ

structure ApplicationDocument where
  id : String
  jsonData : String
  deriving DecidableEq

structure ApplicationDocumentPage where
  documents : List ApplicationDocument
  nextCursor : Option String
  deriving DecidableEq

section Reading

variable {φ : Type*} (toJson : φ → Except String String)

def applicationDocumentFromMesh (document : MeshDocument φ) : Except PeatError ApplicationDocument :=
  match document.id with
  | none => .error (.storageError "node-layer document is missing its stable id")
  | some id =>
    match validateApplicationKey "stored document id" id maxApplicationDocumentIdLen with
    | .error e => .error e
    | .ok () =>
      match toJson document.fields with
      | .error error =>
        .error (.encodingError ("application document serialization failed: " ++ error))
      | .ok jsonData =>
        if maxApplicationDocumentBytes < jsonData.utf8ByteSize then
          .error (.invalidInput ("application document exceeds " ++
            toString maxApplicationDocumentBytes ++ " bytes"))
        else .ok ⟨id, jsonData⟩

def collectDocuments : List (MeshDocument φ) → Except PeatError (List ApplicationDocument)
  | [] => .ok []
  | d :: found =>
    match applicationDocumentFromMesh toJson d with
    | .error e => .error e
    | .ok document => (collectDocuments found).map (document :: ·)

def checkedAdd (a b : Nat) : Option Nat := if a + b < u64Count then some (a + b) else none

def pageBytes (total : Nat) : List ApplicationDocument → Except PeatError Nat
  | [] => .ok total
  | d :: documents =>
    match (checkedAdd total d.id.utf8ByteSize).bind (checkedAdd · d.jsonData.utf8ByteSize) with
    | none => .error (.invalidInput "application document page size overflow")
    | some total => pageBytes total documents

def pageAfter (collection : String) (limit : Nat) (after : Option String)
    (documents : List ApplicationDocument) : Except PeatError ApplicationDocumentPage :=
  let found := page ApplicationDocument.id limit after documents
  match pageBytes 0 found with
  | .error e => .error e
  | .ok bytes =>
    if maxApplicationPageBytes < bytes then
      .error (.invalidInput ("application document page exceeds " ++
        toString maxApplicationPageBytes ++ " bytes"))
    else .ok ⟨found,
      if limit < (remaining ApplicationDocument.id after documents).length then
        found.getLast?.map fun d => applicationCursor collection d.id
      else none⟩

def afterCursor (collection : String) : Option String → Except PeatError (Option String)
  | none => .ok none
  | some cursor => (parseApplicationCursor collection cursor).map some

def nodeQueryApplicationDocuments (found : Except String (List (MeshDocument φ)))
    (collection : String) (cursor : Option String) (limit : Nat) :
    Except PeatError ApplicationDocumentPage :=
  match validateApplicationKey "collection" collection maxApplicationCollectionLen with
  | .error e => .error e
  | .ok () =>
    if ¬ (1 ≤ limit ∧ limit ≤ maxApplicationQueryLimit) then
      .error (.invalidInput ("limit must be 1..=" ++ toString maxApplicationQueryLimit ++ " documents"))
    else
      match afterCursor collection cursor with
      | .error e => .error e
      | .ok after =>
        match found with
        | .error error => .error (.storageError error)
        | .ok found =>
          match collectDocuments toJson found with
          | .error e => .error e
          | .ok documents => pageAfter collection limit after documents

end Reading

/-! ## 3. Cursors are read back -/

/-- Not empty, not too long, and of the bytes a key may have. -/
def ValidKey (value : String) (maxLen : Nat) : Prop :=
  value ≠ "" ∧ value.utf8ByteSize ≤ maxLen ∧ (bytesOf value).all keyByte = true

variable {kind value collection other id cursor : String} {maxLen limit : Nat}

theorem validateApplicationKey_ok_iff :
    validateApplicationKey kind value maxLen = .ok () ↔ ValidKey value maxLen := by
  unfold validateApplicationKey ValidKey
  split
  · rename_i h
    exact iff_of_false nofun fun ⟨hne, hlen, _⟩ => h.elim hne (not_lt.mpr hlen)
  · rename_i h
    obtain ⟨hne, hlen⟩ := not_or.mp h
    split
    · rename_i hall
      exact iff_of_false nofun fun ⟨_, _, h⟩ => absurd (h.symm.trans hall) nofun
    · rename_i hall
      exact iff_of_true rfl ⟨hne, not_lt.mp hlen, by simpa using hall⟩

theorem hexDecode_hexEncode (bytes : List UInt8) : hexDecode (hexEncode bytes) = some bytes := by
  induction bytes with
  | nil => rfl
  | cons b bytes ih =>
    have hb : b.toNat < 256 := b.toNat_lt
    have hcons : hexEncode (b :: bytes) =
      (b.toNat / 16).digitChar :: (b.toNat % 16).digitChar :: hexEncode bytes := rfl
    rw [hcons, hexDecode, hexValue_digitChar _ (by omega), hexValue_digitChar _ (by omega), ih]
    dsimp only
    rw [Nat.div_add_mod, UInt8.ofNat_toNat]

theorem digitChar_plain : ∀ d < 16, '.' ≠ Nat.digitChar d ∧ (Nat.digitChar d).utf8Size = 1 := by
  decide

theorem hexEncode_plain (bytes : List UInt8) : ∀ c ∈ hexEncode bytes, '.' ≠ c ∧ c.utf8Size = 1 := by
  intro c hc
  obtain ⟨b, -, hc⟩ := List.mem_flatMap.mp hc
  have hb : b.toNat < 256 := b.toNat_lt
  rcases List.mem_cons.mp hc with rfl | hc
  · exact digitChar_plain _ (by omega)
  · rw [List.mem_singleton.mp hc]
    exact digitChar_plain _ (by omega)

theorem length_hexEncode (bytes : List UInt8) : (hexEncode bytes).length = 2 * bytes.length := by
  induction bytes with
  | nil => rfl
  | cons b bytes ih =>
    have hcons : (hexEncode (b :: bytes)).length = (hexEncode bytes).length + 2 := rfl
    rw [hcons, ih, List.length_cons]
    omega

theorem utf8ByteSize_ofList_plain {l : List Char} (h : ∀ c ∈ l, c.utf8Size = 1) :
    (String.ofList l).utf8ByteSize = l.length := by
  rw [String.utf8ByteSize_ofList]
  induction l with
  | nil => rfl
  | cons c l ih =>
    obtain ⟨hc, hl⟩ := List.forall_mem_cons.mp h
    rw [String.utf8Len_cons, ih hl, hc, List.length_cons, Nat.add_comm]

theorem utf8ByteSize_applicationCursor (collection id : String) :
    (applicationCursor collection id).utf8ByteSize =
      4 + 2 * collection.utf8ByteSize + 2 * id.utf8ByteSize := by
  have hplain : ∀ c ∈ ['v', '1'] ++ '.' :: (hexEncode (bytesOf collection) ++
      '.' :: hexEncode (bytesOf id)), c.utf8Size = 1 := by
    simp only [List.mem_append, List.mem_cons, List.not_mem_nil, or_false]
    rintro c ((rfl | rfl) | rfl | hc | rfl | hc)
    · rfl
    · rfl
    · rfl
    · exact (hexEncode_plain _ c hc).2
    · rfl
    · exact (hexEncode_plain _ c hc).2
  rw [applicationCursor, utf8ByteSize_ofList_plain hplain]
  simp only [List.length_append, List.length_cons, length_hexEncode, length_bytesOf, List.length_nil]
  omega

theorem splitOn_applicationCursor (collection id : String) :
    (applicationCursor collection id).toList.splitOn '.' =
      [['v', '1'], hexEncode (bytesOf collection), hexEncode (bytesOf id)] := by
  have hplain : ∀ bytes, '.' ∉ hexEncode bytes := fun bytes h => (hexEncode_plain bytes _ h).1 rfl
  rw [applicationCursor, String.toList_ofList,
    List.splitOn_append_cons_self_of_not_mem (by decide),
    List.splitOn_append_cons_self_of_not_mem (hplain _), List.splitOn_eq_singleton (hplain _)]

theorem parseApplicationCursor_applicationCursor (hcollection : ValidKey collection 128)
    (hid : ValidKey id 256) (other : String) :
    parseApplicationCursor other (applicationCursor collection id) =
      if other = collection then .ok id
      else .error (.invalidInput "cursor belongs to a different collection") := by
  have hlen := utf8ByteSize_applicationCursor collection id
  have hne : applicationCursor collection id ≠ "" := by
    rw [Ne, ← String.utf8ByteSize_eq_zero_iff]
    omega
  have hmax : ¬ maxApplicationCursorLen < (applicationCursor collection id).utf8ByteSize := by
    have h1 := hcollection.2.1
    have h2 := hid.2.1
    have h3 : maxApplicationCursorLen = 1024 := rfl
    omega
  have hread : ∀ s, (hexDecode (hexEncode (bytesOf s))).bind fromUtf8 = some s := by
    intro s
    rw [hexDecode_hexEncode]
    exact fromUtf8_eq_some_iff.mpr rfl
  rw [parseApplicationCursor, if_neg (not_or.mpr ⟨hne, hmax⟩), splitOn_applicationCursor]
  dsimp only
  rw [if_neg (not_not.mpr rfl), hread, hread]
  by_cases h : other = collection
  · subst h
    dsimp only
    rw [if_neg (not_not.mpr rfl), if_pos rfl,
      validateApplicationKey_ok_iff.mpr (show ValidKey id maxApplicationDocumentIdLen from hid)]
    rfl
  · dsimp only
    rw [if_pos (Ne.symm h), if_neg h]

/-! ## 4. A request that is served -/

variable {φ : Type*} {toJson : φ → Except String String} {document : MeshDocument φ}
  {found : List (MeshDocument φ)} {documents : List ApplicationDocument} {a : ApplicationDocument}
  {after : Option String}

def MeshDocument.InBounds (toJson : φ → Except String String) (d : MeshDocument φ) : Prop :=
  ∃ id jsonData, d.id = some id ∧ ValidKey id 256 ∧ toJson d.fields = .ok jsonData ∧
    jsonData.utf8ByteSize ≤ 1048576

theorem applicationDocumentFromMesh_ok_iff :
    applicationDocumentFromMesh toJson document = .ok a ↔
      document.id = some a.id ∧ ValidKey a.id 256 ∧ toJson document.fields = .ok a.jsonData ∧
        a.jsonData.utf8ByteSize ≤ 1048576 := by
  constructor
  · intro h
    unfold applicationDocumentFromMesh at h
    split at h
    · cases h
    · rename_i id hid
      split at h
      · cases h
      · rename_i hkey
        split at h
        · cases h
        · rename_i jsonData hjson
          split at h
          · cases h
          · rename_i hlen
            cases h
            exact ⟨hid, validateApplicationKey_ok_iff.mp hkey, hjson, not_lt.mp hlen⟩
  · rintro ⟨hid, hkey, hjson, hlen⟩
    have hvalid : validateApplicationKey "stored document id" a.id maxApplicationDocumentIdLen = .ok () :=
      validateApplicationKey_ok_iff.mpr hkey
    have hsize : ¬ maxApplicationDocumentBytes < a.jsonData.utf8ByteSize := not_lt.mpr hlen
    rw [applicationDocumentFromMesh, hid]
    dsimp only
    rw [hvalid]
    dsimp only
    rw [hjson]
    exact if_neg hsize

theorem collectDocuments_ok_iff : collectDocuments toJson found = .ok documents ↔
    List.Forall₂ (fun d a => applicationDocumentFromMesh toJson d = .ok a) found documents := by
  induction found generalizing documents with
  | nil =>
    rw [collectDocuments, List.forall₂_nil_left_iff]
    exact ⟨fun h => (Except.ok.inj h).symm, fun h => congrArg _ h.symm⟩
  | cons d found ih =>
    rw [collectDocuments, List.forall₂_cons_left_iff]
    constructor
    · intro h
      split at h
      · cases h
      · rename_i a ha
        cases hrest : collectDocuments toJson found with
        | error e =>
          rw [hrest] at h
          cases h
        | ok rest =>
          rw [hrest] at h
          cases h
          exact ⟨a, rest, ha, ih.mp hrest, rfl⟩
    · rintro ⟨a, rest, ha, hrest, rfl⟩
      rw [ha, ih.mpr hrest]
      rfl

theorem exists_collectDocuments (h : ∀ d ∈ found, d.InBounds toJson) :
    ∃ documents, collectDocuments toJson found = .ok documents := by
  induction found with
  | nil => exact ⟨[], rfl⟩
  | cons d found ih =>
    obtain ⟨⟨id, jsonData, hd⟩, hfound⟩ := List.forall_mem_cons.mp h
    obtain ⟨rest, hrest⟩ := ih hfound
    have hd' : applicationDocumentFromMesh toJson d = .ok ⟨id, jsonData⟩ :=
      applicationDocumentFromMesh_ok_iff.mpr hd
    exact ⟨⟨id, jsonData⟩ :: rest,
      collectDocuments_ok_iff.mpr (.cons hd' (collectDocuments_ok_iff.mp hrest))⟩

theorem ids_of_collect (h : collectDocuments toJson found = .ok documents) :
    documents.map (fun a => some a.id) = found.map MeshDocument.id := by
  have h' := collectDocuments_ok_iff.mp h
  clear h
  induction h' with
  | nil => rfl
  | cons ha _ ih => rw [List.map_cons, List.map_cons, ih, (applicationDocumentFromMesh_ok_iff.mp ha).1]

theorem validKey_of_collect (h : collectDocuments toJson found = .ok documents) :
    ∀ a ∈ documents, ValidKey a.id 256 := by
  have h' := collectDocuments_ok_iff.mp h
  clear h
  induction h' with
  | nil => nofun
  | cons ha _ ih =>
    exact List.forall_mem_cons.mpr ⟨(applicationDocumentFromMesh_ok_iff.mp ha).2.1, ih⟩

theorem mem_of_collect (h : collectDocuments toJson found = .ok documents) (hd : document ∈ found) :
    ∃ a ∈ documents, applicationDocumentFromMesh toJson document = .ok a := by
  have h' := collectDocuments_ok_iff.mp h
  clear h
  induction h' with
  | nil => cases hd
  | cons ha _ ih =>
    rcases List.mem_cons.mp hd with rfl | hd
    · exact ⟨_, List.mem_cons_self, ha⟩
    · obtain ⟨a, hmem, ha⟩ := ih hd
      exact ⟨a, List.mem_cons_of_mem _ hmem, ha⟩

def pageSize : List ApplicationDocument → Nat
  | [] => 0
  | d :: documents => d.id.utf8ByteSize + d.jsonData.utf8ByteSize + pageSize documents

theorem pageBytes_eq {total : Nat} (h : total + pageSize documents < u64Count) :
    pageBytes total documents = .ok (total + pageSize documents) := by
  induction documents generalizing total with
  | nil => rfl
  | cons d documents ih =>
    rw [pageSize] at h ⊢
    rw [pageBytes, checkedAdd, if_pos (by omega), Option.bind_some, checkedAdd, if_pos (by omega)]
    dsimp only
    rw [ih (by omega)]
    exact congrArg _ (by omega)

/-- Distinct documents within their bounds, with pages that fit into a reply. -/
structure Served (toJson : φ → Except String String) (limit : Nat) (found : List (MeshDocument φ)) :
    Prop where
  bounded : ∀ d ∈ found, d.InBounds toJson
  distinct : (found.map MeshDocument.id).Nodup
  pages : ∀ documents after, collectDocuments toJson found = .ok documents →
    pageSize (page ApplicationDocument.id limit after documents) ≤ 4194304

theorem Served.keys (h : Served toJson limit found)
    (hdocs : collectDocuments toJson found = .ok documents) :
    (documents.map ApplicationDocument.id).Nodup := by
  have hids : (documents.map fun a => some a.id).Nodup := ids_of_collect hdocs ▸ h.distinct
  exact List.Nodup.of_map some (by rwa [List.map_map])

theorem Served.query (h : Served toJson limit found) (hcollection : ValidKey collection 128)
    (hlimit : 1 ≤ limit ∧ limit ≤ 100) {cursor : Option String}
    (hcursor : afterCursor collection cursor = .ok after)
    (hdocs : collectDocuments toJson found = .ok documents) :
    nodeQueryApplicationDocuments toJson (.ok found) collection cursor limit =
      .ok ⟨page ApplicationDocument.id limit after documents,
        (next ApplicationDocument.id limit after documents).map (applicationCursor collection)⟩ := by
  have hsize := h.pages documents after hdocs
  have hmax : ¬ maxApplicationPageBytes < pageSize (page ApplicationDocument.id limit after documents) :=
    not_lt.mpr hsize
  have hkey : validateApplicationKey "collection" collection maxApplicationCollectionLen = .ok () :=
    validateApplicationKey_ok_iff.mpr hcollection
  have hlimit' : ¬ ¬ (1 ≤ limit ∧ limit ≤ maxApplicationQueryLimit) := not_not.mpr hlimit
  have hbytes : pageBytes 0 (page ApplicationDocument.id limit after documents) =
      .ok (pageSize (page ApplicationDocument.id limit after documents)) := by
    have hcount : u64Count = 18446744073709551616 := rfl
    rw [pageBytes_eq (by omega), Nat.zero_add]
  rw [nodeQueryApplicationDocuments, hkey]
  dsimp only
  rw [if_neg hlimit', hcursor]
  dsimp only
  rw [hdocs]
  dsimp only
  rw [pageAfter, hbytes]
  dsimp only
  rw [if_neg hmax, next]
  split
  · rw [Option.map_map]
    rfl
  · rfl

/-! ## 5. Scans -/

/-- A scan that follows cursors: the stores it met, the documents it returned, the cursor left. -/
inductive Scan (toJson : φ → Except String String) (collection : String) (limit : Nat) :
    Option String → List (List (MeshDocument φ)) → List ApplicationDocument → Option String → Prop where
  | one {cursor : Option String} {found : List (MeshDocument φ)} {p : ApplicationDocumentPage}
      (h : nodeQueryApplicationDocuments toJson (.ok found) collection cursor limit = .ok p) :
      Scan toJson collection limit cursor [found] p.documents p.nextCursor
  | more {cursor last : Option String} {found : List (MeshDocument φ)} {p : ApplicationDocumentPage}
      {c : String} {stores : List (List (MeshDocument φ))} {documents : List ApplicationDocument}
      (h : nodeQueryApplicationDocuments toJson (.ok found) collection cursor limit = .ok p)
      (hnext : p.nextCursor = some c)
      (hrest : Scan toJson collection limit (some c) stores documents last) :
      Scan toJson collection limit cursor (found :: stores) (p.documents ++ documents) last

variable {stores : List (List (MeshDocument φ))} {last : Option String}

theorem afterCursor_own {key : String} (hcollection : ValidKey collection 128) (hkey : ValidKey key 256) :
    afterCursor collection (some (applicationCursor collection key)) = .ok (some key) := by
  rw [afterCursor, parseApplicationCursor_applicationCursor hcollection hkey, if_pos rfl]
  rfl

theorem Scan.run {cursor : Option String} (h : Scan toJson collection limit cursor stores documents last)
    (hcollection : ValidKey collection 128) (hlimit : 1 ≤ limit ∧ limit ≤ 100)
    (hserved : ∀ found ∈ stores, Served toJson limit found)
    (hcursor : afterCursor collection cursor = .ok after) :
    ∃ lists key, List.Forall₂ (fun found l => collectDocuments toJson found = .ok l) stores lists ∧
      Run ApplicationDocument.id limit after lists documents key ∧
        last = key.map (applicationCursor collection) ∧ ∀ k, key = some k → ValidKey k 256 := by
  induction h generalizing after with
  | @one cursor found p h =>
    have hfound := hserved found (List.mem_singleton_self _)
    obtain ⟨l, hl⟩ := exists_collectDocuments hfound.bounded
    rw [hfound.query hcollection hlimit hcursor hl] at h
    cases h
    refine ⟨[l], _, .cons hl .nil, .one after l, rfl, fun k hk => ?_⟩
    obtain ⟨a, ha, rfl⟩ := exists_of_next hk
    exact validKey_of_collect hl a ha
  | @more cursor last found p c stores documents h hnext hrest ih =>
    obtain ⟨hfound, hstores⟩ := List.forall_mem_cons.mp hserved
    obtain ⟨l, hl⟩ := exists_collectDocuments hfound.bounded
    rw [hfound.query hcollection hlimit hcursor hl] at h
    cases h
    obtain ⟨k, hk, rfl⟩ := Option.map_eq_some_iff.mp hnext
    obtain ⟨a, ha, rfl⟩ := exists_of_next hk
    have hafter := afterCursor_own hcollection (validKey_of_collect hl a ha)
    obtain ⟨lists, key, hlists, hrun, hlast, hvalid⟩ := ih hstores hafter
    exact ⟨l :: lists, key, .cons hl hlists, .more hk hrun, hlast, hvalid⟩

theorem Served.exists_page (h : Served toJson limit found) (hcollection : ValidKey collection 128)
    (hlimit : 1 ≤ limit ∧ limit ≤ 100) {cursor : Option String}
    (hcursor : afterCursor collection cursor = .ok after) :
    ∃ p, nodeQueryApplicationDocuments toJson (.ok found) collection cursor limit = .ok p := by
  obtain ⟨documents, hdocs⟩ := exists_collectDocuments h.bounded
  exact ⟨_, h.query hcollection hlimit hcursor hdocs⟩

/-- **A scan of a settled collection ends**: behind every page with a cursor fewer documents remain. -/
theorem Served.scan_ends (h : Served toJson limit found) (hcollection : ValidKey collection 128)
    (hlimit : 1 ≤ limit ∧ limit ≤ 100) {cursor : Option String}
    (hcursor : afterCursor collection cursor = .ok after) :
    ∃ n documents, Scan toJson collection limit cursor (List.replicate (n + 1) found) documents none := by
  obtain ⟨documents, hdocs⟩ := exists_collectDocuments h.bounded
  generalize hcount : (remaining ApplicationDocument.id after documents).length = count
  induction count using Nat.strongRecOn generalizing cursor after with
  | ind count ih =>
    have hpage := h.query hcollection hlimit hcursor hdocs
    cases hnext : next ApplicationDocument.id limit after documents with
    | none =>
      rw [hnext] at hpage
      exact ⟨0, _, .one hpage⟩
    | some k =>
      rw [hnext] at hpage
      obtain ⟨a, ha, rfl⟩ := exists_of_next hnext
      have hafter := afterCursor_own hcollection (validKey_of_collect hdocs a ha)
      have hless := length_remaining_lt (h.keys hdocs) hnext
      obtain ⟨n, rest, hrest⟩ := ih _ (hcount ▸ hless) hafter rfl
      exact ⟨n + 1, _, .more hpage rfl hrest⟩

theorem query_error {e : PeatError} {cursor : Option String} (h : afterCursor collection cursor = .error e)
    (found : Except String (List (MeshDocument φ))) (limit : Nat) :
    ∃ e, nodeQueryApplicationDocuments toJson found collection cursor limit = .error e := by
  unfold nodeQueryApplicationDocuments
  split
  · exact ⟨_, rfl⟩
  · split
    · exact ⟨_, rfl⟩
    · rw [h]
      exact ⟨e, rfl⟩

theorem exists_in_lists {lists : List (List ApplicationDocument)} {P : ApplicationDocument → Prop}
    (hlists : List.Forall₂ (fun found l => collectDocuments toJson found = .ok l) stores lists)
    (hd : ∀ found ∈ stores, ∃ d ∈ found, d.id = some id ∧
      ∀ a, applicationDocumentFromMesh toJson d = .ok a → P a) :
    ∀ l ∈ lists, ∃ a ∈ l, a.id = id ∧ P a := by
  induction hlists with
  | nil => nofun
  | cons hl _ ih =>
    obtain ⟨⟨d, hfound, hid, hP⟩, hrest⟩ := List.forall_mem_cons.mp hd
    obtain ⟨a, hmem, ha⟩ := mem_of_collect hl hfound
    have hsame := hid.symm.trans (applicationDocumentFromMesh_ok_iff.mp ha).1
    exact List.forall_mem_cons.mpr ⟨⟨a, hmem, (Option.some.inj hsame).symm, hP a ha⟩, ih hrest⟩

theorem keys_lists {lists : List (List ApplicationDocument)}
    (hlists : List.Forall₂ (fun found l => collectDocuments toJson found = .ok l) stores lists)
    (hserved : ∀ found ∈ stores, Served toJson limit found) :
    ∀ l ∈ lists, (l.map ApplicationDocument.id).Nodup := by
  induction hlists with
  | nil => nofun
  | cons hl _ ih =>
    obtain ⟨hfirst, hrest⟩ := List.forall_mem_cons.mp hserved
    exact List.forall_mem_cons.mpr ⟨hfirst.keys hl, ih hrest⟩

/-- **Scans of a changing collection**: every request is answered, the ids only grow, a page with a cursor
    is full, a cursor is good for its own collection alone, a scan of what no longer changes ends, and in
    the end whatever was there throughout was returned. -/
theorem scan_complete (toJson : φ → Except String String) (hcollection : ValidKey collection 128)
    (hlimit : 1 ≤ limit ∧ limit ≤ 100) :
    (∀ found, Served toJson limit found →
      (∃ p, nodeQueryApplicationDocuments toJson (.ok found) collection none limit = .ok p) ∧
        ∃ n documents, Scan toJson collection limit none (List.replicate (n + 1) found) documents none) ∧
    ∀ stores documents last, (∀ found ∈ stores, Served toJson limit found) →
      Scan toJson collection limit none stores documents last →
        documents.Pairwise (fun a b => a.id < b.id) ∧
        (∀ c, last = some c →
          documents.length = limit * stores.length ∧
          (∀ found, Served toJson limit found →
            (∃ p, nodeQueryApplicationDocuments toJson (.ok found) collection (some c) limit = .ok p) ∧
              ∃ n more, Scan toJson collection limit (some c) (List.replicate (n + 1) found) more none) ∧
          ∀ other, other ≠ collection → ∀ (found : Except String (List (MeshDocument φ))) limit',
            ∃ e, nodeQueryApplicationDocuments toJson found other (some c) limit' = .error e) ∧
        (last = none →
          (∀ d, (∀ found ∈ stores, d ∈ found) →
            ∃ a ∈ documents, applicationDocumentFromMesh toJson d = .ok a) ∧
          ∀ id, (∀ found ∈ stores, ∃ d ∈ found, d.id = some id) → ∃ a ∈ documents, a.id = id) := by
  refine ⟨fun found h => ⟨h.exists_page hcollection hlimit rfl, h.scan_ends hcollection hlimit rfl⟩, ?_⟩
  intro stores documents last hserved hscan
  obtain ⟨lists, key, hlists, hrun, rfl, hvalid⟩ := hscan.run hcollection hlimit hserved rfl
  have hkeys := keys_lists hlists hserved
  refine ⟨hrun.pairwise hkeys, fun c hc => ?_, fun hnone => ?_⟩
  · obtain ⟨k, rfl, rfl⟩ := Option.map_eq_some_iff.mp hc
    have hparse := parseApplicationCursor_applicationCursor hcollection (hvalid k rfl)
    have hafter := afterCursor_own hcollection (hvalid k rfl)
    refine ⟨hlists.length_eq ▸ hrun.length, fun found h => ?_, fun other hother found limit' => ?_⟩
    · exact ⟨h.exists_page hcollection hlimit hafter, h.scan_ends hcollection hlimit hafter⟩
    · refine query_error (e := .invalidInput "cursor belongs to a different collection") ?_ found limit'
      rw [afterCursor, hparse, if_neg hother]
      rfl
  · obtain rfl := Option.map_eq_none_iff.mp hnone
    constructor
    · intro d hd
      -- the id of the document is known from the first request
      obtain ⟨id, hid⟩ : ∃ id, d.id = some id := by
        cases hlists with
        | nil => cases hrun
        | @cons found _ _ _ _ _ =>
          obtain ⟨id, _, hid, _⟩ :=
            (hserved found List.mem_cons_self).bounded d (hd found List.mem_cons_self)
          exact ⟨id, hid⟩
      obtain ⟨a, hmem, -, ha⟩ := hrun.complete hlimit.1 hkeys (exists_in_lists hlists
        fun found hfound => ⟨d, hd found hfound, hid, fun a ha => ha⟩) trivial
      exact ⟨a, hmem, ha⟩
    · intro id hid
      obtain ⟨a, hmem, ha, -⟩ := hrun.complete hlimit.1 hkeys (exists_in_lists (P := fun _ => True) hlists
        fun found hfound => (hid found hfound).imp fun d h => ⟨h.1, h.2, fun _ _ => trivial⟩) trivial
      exact ⟨a, hmem, ha⟩

def track (id : String) : MeshDocument Unit := ⟨some id, ()⟩

def trackJson (_ : Unit) : Except String String := .ok "null"

theorem collect_tracks : collectDocuments trackJson [track "n2", track "n1"] =
    .ok [⟨"n2", "null"⟩, ⟨"n1", "null"⟩] := by
  have hid : ∀ id, ValidKey id 256 → applicationDocumentFromMesh trackJson (track id) = .ok ⟨id, "null"⟩ :=
    fun id h => applicationDocumentFromMesh_ok_iff.mpr
      ⟨rfl, h, rfl, show "null".utf8ByteSize ≤ 1048576 by decide⟩
  exact collectDocuments_ok_iff.mpr (.cons (hid _ ⟨by decide, by decide, by decide⟩)
    (.cons (hid _ ⟨by decide, by decide, by decide⟩) .nil))

theorem served_tracks : Served trackJson 1 [track "n2", track "n1"] := by
  refine ⟨fun d hd => ?_, by decide, fun documents after hdocs => ?_⟩
  · obtain ⟨a, -, ha⟩ := mem_of_collect collect_tracks hd
    exact ⟨a.id, a.jsonData, applicationDocumentFromMesh_ok_iff.mp ha⟩
  · cases Except.ok.inj (collect_tracks.symm.trans hdocs)
    cases after with
    | none => decide
    | some k =>
      show pageSize ((List.filter (fun x => k < x.id) [⟨"n1", "null"⟩, ⟨"n2", "null"⟩]).take 1) ≤ 4194304
      rw [List.filter_cons, List.filter_cons, List.filter_nil]
      split <;> split <;> decide

/-- Two requests for one document each, the second with the cursor of the first. -/
theorem scan_complete_tracks :
    Scan trackJson "tracks" 1 none [[track "n2", track "n1"], [track "n2", track "n1"]]
      [⟨"n1", "null"⟩, ⟨"n2", "null"⟩] none ∧
    ∃ a ∈ [(⟨"n1", "null"⟩ : ApplicationDocument), ⟨"n2", "null"⟩], a.id = "n2" := by
  have htracks : ValidKey "tracks" 128 := ⟨by decide, by decide, by decide⟩
  have hstart : afterCursor "tracks" none = .ok none := rfl
  have hfirst := served_tracks.query htracks (by decide) hstart collect_tracks
  have hafter := @afterCursor_own _ "n1" htracks ⟨by decide, by decide, by decide⟩
  have hsecond := served_tracks.query htracks (by decide) hafter collect_tracks
  have hscan : Scan trackJson "tracks" 1 none [[track "n2", track "n1"], [track "n2", track "n1"]]
      [⟨"n1", "null"⟩, ⟨"n2", "null"⟩] none := .more hfirst rfl (.one hsecond)
  have hcomplete := (scan_complete trackJson htracks (by decide)).2 _ _ _
    (List.forall_mem_cons.mpr ⟨served_tracks, List.forall_mem_singleton.mpr served_tracks⟩) hscan
  refine ⟨hscan, (hcomplete.2.2 rfl).2 "n2" fun found hfound => ⟨track "n2", ?_, rfl⟩⟩
  have hsame : found = [track "n2", track "n1"] := by simpa using hfound
  rw [hsame]
  exact List.mem_cons_self

end Peat.Ffi
