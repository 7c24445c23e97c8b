/-
  THE CELL STORE (storage/cell_store.rs): cells as documents of a backend, and the
  operations that read a cell, edit it and write it back.

  The backend is a map from document ids to documents. `CellStore` carries that a cell
  with an id is stored under it. What the backend answers (`Answers`) and clock readings
  are inputs. A document reads back as the cell it was made of.
-/
import Peat.Lib.HashMap
import Peat.Models.Cell

namespace Peat.Storage

open Peat.Lib Peat.Models

/-! ## 1. The documents -/

inductive StoreError where
  | notFound (resourceType id : String)
  | internal (message : String)
  | storage (message operation : String) (key : Option String)
  deriving DecidableEq

structure Answers where
  query : Option String
  upsert : Option String
  generatedId : String

def cellCollection : String := "cells"

structure CellStore where
  cells : HashMap String CellState
  keyed : ∀ docId cell, cells.lookup docId = some cell →
    ∀ cellId, cell.getId = some cellId → cellId = docId

namespace CellStore

def empty : CellStore := ⟨∅, nofun⟩

def documents (s : CellStore) : List CellState := s.cells.entries.map (·.2)

def find (s : CellStore) (cellId : String) : Option CellState :=
  (s.documents.filter fun cell => cell.getId = some cellId).head?

def getCell (s : CellStore) (failure : Option String) (cellId : String) :
    Except StoreError (Option CellState) :=
  match failure with
  | some e => .error (.internal e)
  | none => .ok (s.find cellId)

def getValidCells (s : CellStore) (failure : Option String) : Except StoreError (List CellState) :=
  match failure with
  | some e => .error (.internal e)
  | none => .ok (s.documents.filter CellState.isValid)

def documentId (cell : CellState) (generatedId : String) : String := cell.getId.getD generatedId

def put (s : CellStore) (cell : CellState) (generatedId : String) : CellStore where
  cells := s.cells.insert (documentId cell generatedId) cell
  keyed := by
    refine forall_lookup_insert ?_ s.keyed
    intro cellId hid
    rw [documentId, hid]
    rfl

def storeCell (s : CellStore) (cell : CellState) (answers : Answers) :
    Except StoreError (String × CellStore) :=
  match answers.upsert with
  | some e => .error (.storage ("Failed to store cell: " ++ e) "upsert" (some cellCollection))
  | none => .ok (documentId cell answers.generatedId, s.put cell answers.generatedId)

variable {s : CellStore} {cellId : String} {cell : CellState}

theorem mem_documents_iff : cell ∈ s.documents ↔ ∃ docId, s.cells.lookup docId = some cell := by
  simp only [documents, List.mem_map, Sigma.exists, lookup_eq_some_iff]
  constructor
  · rintro ⟨docId, cell', hmem, rfl⟩
    exact ⟨docId, hmem⟩
  · rintro ⟨docId, hmem⟩
    exact ⟨docId, cell, hmem, rfl⟩

theorem lookup_of_mem_documents (h : cell ∈ s.documents) (hid : cell.getId = some cellId) :
    s.cells.lookup cellId = some cell := by
  obtain ⟨docId, hlookup⟩ := mem_documents_iff.mp h
  rw [s.keyed docId cell hlookup cellId hid]
  exact hlookup

theorem find_eq_some_iff :
    s.find cellId = some cell ↔ s.cells.lookup cellId = some cell ∧ cell.getId = some cellId := by
  have hmem : ∀ c, c ∈ s.documents.filter (fun cell => cell.getId = some cellId) →
      s.cells.lookup cellId = some c ∧ c.getId = some cellId := by
    intro c hc
    obtain ⟨hdoc, hid⟩ := List.mem_filter.mp hc
    exact ⟨lookup_of_mem_documents hdoc (of_decide_eq_true hid), of_decide_eq_true hid⟩
  constructor
  · intro h
    exact hmem cell (List.mem_of_mem_head? h)
  · rintro ⟨hlookup, hid⟩
    have hin : cell ∈ s.documents.filter (fun cell => cell.getId = some cellId) :=
      List.mem_filter.mpr ⟨mem_documents_iff.mpr ⟨cellId, hlookup⟩, decide_eq_true hid⟩
    obtain ⟨first, rest, hfirst⟩ := List.exists_cons_of_ne_nil (List.ne_nil_of_mem hin)
    have hsame := (hmem first (by rw [hfirst]; exact List.mem_cons_self)).1
    rw [find, hfirst, List.head?_cons]
    exact hsame.symm.trans hlookup

theorem getCell_eq_ok_iff {failure : Option String} {found : Option CellState} :
    s.getCell failure cellId = .ok found ↔ failure = none ∧ s.find cellId = found := by
  cases failure with
  | none => exact ⟨fun h => ⟨rfl, Except.ok.inj h⟩, fun h => congrArg Except.ok h.2⟩
  | some e => exact iff_of_false nofun nofun

/-! ## 2. The operations on one cell -/

end CellStore

inductive CellRequest where
  | addMember (nodeId : String)
  | removeMember (nodeId : String)
  | setLeader (nodeId : String)
  | addCapability (capability : Capability)
  deriving DecidableEq

def CellRequest.edit (now : Nat) (cell : CellState) : CellRequest → Except StoreError CellState
  | .addMember nodeId =>
    match cell.addMember nodeId now with
    | (_, false) => .error (.internal "Failed to add member to cell")
    | (cell', true) => .ok cell'
  | .removeMember nodeId =>
    match cell.removeMember nodeId now with
    | (_, false) => .error (.internal "Failed to remove member from cell")
    | (cell', true) => .ok cell'
  | .setLeader nodeId =>
    match cell.setLeader nodeId now with
    | (_, .error e) => .error (.internal e)
    | (cell', .ok ()) => .ok cell'
  | .addCapability capability => .ok (cell.addCapability capability now)

theorem CellRequest.edit_cases {now : Nat} {cell written : CellState} {r : CellRequest}
    (h : r.edit now cell = .ok written) :
    (∃ nodeId, r = .addMember nodeId ∧ nodeId ∉ cell.members ∧
      written = { cell with members := cell.members ++ [nodeId], timestamp := stampOf now }) ∨
    (∃ nodeId, r = .removeMember nodeId ∧
      written = { cell with
        members := cell.members.erase nodeId
        timestamp := stampOf now
        leaderId := if cell.leaderId = some nodeId then none else cell.leaderId }) ∨
    (∃ nodeId, r = .setLeader nodeId ∧
      written = { cell with leaderId := some nodeId, timestamp := stampOf now }) ∨
    ∃ capability, r = .addCapability capability ∧
      (capability.id ∈ cell.capabilities.map Capability.id ∧ written = cell ∨
        written = { cell with
          capabilities := cell.capabilities ++ [capability]
          timestamp := stampOf now }) := by
  cases r with
  | addMember nodeId =>
    rw [edit] at h
    obtain ⟨-, e⟩ | ⟨-, hm, e⟩ := cell.addMember_cases nodeId now <;> rw [e] at h <;> cases h
    exact Or.inl ⟨nodeId, rfl, hm, rfl⟩
  | removeMember nodeId =>
    rw [edit] at h
    obtain ⟨-, e⟩ | ⟨-, e⟩ := cell.removeMember_cases nodeId now <;> rw [e] at h <;> cases h
    exact Or.inr (Or.inl ⟨nodeId, rfl, rfl⟩)
  | setLeader nodeId =>
    rw [edit] at h
    obtain ⟨-, e⟩ | ⟨-, e⟩ := cell.setLeader_cases nodeId now <;> rw [e] at h <;> cases h
    exact Or.inr (Or.inr (Or.inl ⟨nodeId, rfl, rfl⟩))
  | addCapability capability =>
    cases h
    refine Or.inr (Or.inr (Or.inr ⟨capability, rfl, ?_⟩))
    obtain ⟨hc, e⟩ | ⟨-, e⟩ := cell.addCapability_cases capability now
    · exact Or.inl ⟨hc, e⟩
    · exact Or.inr e

theorem CellRequest.config_edit {now : Nat} {cell written : CellState} {r : CellRequest}
    (h : r.edit now cell = .ok written) : written.config = cell.config := by
  obtain ⟨_, _, _, rfl⟩ | ⟨_, _, rfl⟩ | ⟨_, _, rfl⟩ | ⟨_, _, ⟨_, rfl⟩ | rfl⟩ := edit_cases h <;> rfl

structure Draft (cellId : String) where
  request : CellRequest
  now : Nat
  read : CellState
  written : CellState
  read_id : read.getId = some cellId
  written_eq : request.edit now read = .ok written

theorem Draft.written_id {cellId : String} (d : Draft cellId) : d.written.getId = some cellId := by
  rw [CellState.getId, CellRequest.config_edit d.written_eq]
  exact d.read_id

namespace CellStore

theorem id_of_getCell {s : CellStore} {failure : Option String} {cellId : String} {cell : CellState}
    (h : s.getCell failure cellId = .ok (some cell)) : cell.getId = some cellId :=
  (find_eq_some_iff.mp (getCell_eq_ok_iff.mp h).2).2

def draft (s : CellStore) (cellId : String) (r : CellRequest) (now : Nat) (failure : Option String) :
    Except StoreError (Draft cellId) :=
  match hread : s.getCell failure cellId with
  | .error e => .error e
  | .ok none => .error (.notFound "Cell" cellId)
  | .ok (some cell) =>
    match hedit : r.edit now cell with
    | .error e => .error e
    | .ok written => .ok ⟨r, now, cell, written, id_of_getCell hread, hedit⟩

def perform (s : CellStore) (cellId : String) (r : CellRequest) (now : Nat) (answers : Answers) :
    Except StoreError CellStore :=
  match s.draft cellId r now answers.query with
  | .error e => .error e
  | .ok d =>
    match s.storeCell d.written answers with
    | .error e => .error e
    | .ok (_, s') => .ok s'

def addMember (s : CellStore) (cellId nodeId : String) : Nat → Answers → Except StoreError CellStore :=
  s.perform cellId (.addMember nodeId)

def removeMember (s : CellStore) (cellId nodeId : String) :
    Nat → Answers → Except StoreError CellStore :=
  s.perform cellId (.removeMember nodeId)

def setLeader (s : CellStore) (cellId nodeId : String) : Nat → Answers → Except StoreError CellStore :=
  s.perform cellId (.setLeader nodeId)

def addCapability (s : CellStore) (cellId : String) (capability : Capability) :
    Nat → Answers → Except StoreError CellStore :=
  s.perform cellId (.addCapability capability)

variable {s s' : CellStore} {cellId : String} {r : CellRequest} {now : Nat} {failure : Option String}

theorem exists_of_draft {d : Draft cellId} (h : s.draft cellId r now failure = .ok d) :
    d.request = r ∧ d.now = now ∧ s.find cellId = some d.read := by
  unfold draft at h
  split at h
  · cases h
  · cases h
  · rename_i cell hread
    split at h
    · cases h
    · cases h
      exact ⟨rfl, rfl, (getCell_eq_ok_iff.mp hread).2⟩

theorem cells_put_draft (s : CellStore) (d : Draft cellId) (generatedId : String) :
    (s.put d.written generatedId).cells = s.cells.insert cellId d.written := by
  show s.cells.insert (d.written.getId.getD generatedId) d.written = s.cells.insert cellId d.written
  rw [d.written_id]
  rfl

theorem find_put_draft (s : CellStore) (d : Draft cellId) (generatedId : String) :
    (s.put d.written generatedId).find cellId = some d.written := by
  rw [find_eq_some_iff, cells_put_draft, AList.lookup_insert]
  exact ⟨rfl, d.written_id⟩

theorem exists_of_perform {answers : Answers} (h : s.perform cellId r now answers = .ok s') :
    ∃ cell written, s.find cellId = some cell ∧ r.edit now cell = .ok written ∧
      s'.cells = s.cells.insert cellId written := by
  unfold perform at h
  split at h
  · cases h
  · rename_i d hd
    obtain ⟨hr, hnow, hfind⟩ := exists_of_draft hd
    have hwritten := d.written_eq
    rw [hr, hnow] at hwritten
    refine ⟨d.read, d.written, hfind, hwritten, ?_⟩
    rw [storeCell] at h
    cases hup : answers.upsert with
    | some e =>
      rw [hup] at h
      cases h
    | none =>
      rw [hup] at h
      cases h
      exact cells_put_draft s d answers.generatedId

theorem draft_isOk_iff {cell : CellState} (hfind : s.find cellId = some cell) :
    (s.draft cellId r now failure).isOk = true ↔ failure = none ∧ (r.edit now cell).isOk = true := by
  unfold draft
  split
  · rename_i e hread
    refine iff_of_false nofun fun h => ?_
    rw [h.1] at hread
    cases hread
  · rename_i hread
    rw [(getCell_eq_ok_iff.mp hread).2] at hfind
    cases hfind
  · rename_i cell' hread
    obtain ⟨hanswered, hsame⟩ := getCell_eq_ok_iff.mp hread
    rw [hfind] at hsame
    cases hsame
    rw [and_iff_right hanswered]
    split
    · rename_i hedit
      rw [hedit]
      rfl
    · rename_i written hedit
      exact iff_of_true rfl (by rw [hedit]; rfl)

theorem perform_isOk_iff {answers : Answers} {cell : CellState} (hfind : s.find cellId = some cell) :
    (s.perform cellId r now answers).isOk = true ↔
      (r.edit now cell).isOk = true ∧ answers.query = none ∧ answers.upsert = none := by
  rw [← and_assoc, and_comm (a := _ = true), ← draft_isOk_iff hfind, perform]
  cases s.draft cellId r now answers.query with
  | error e => exact iff_of_false nofun fun h => nomatch h.1
  | ok d =>
    unfold storeCell
    cases answers.upsert with
    | some e => exact iff_of_false nofun fun h => nomatch h.2
    | none => exact iff_of_true rfl ⟨rfl, rfl⟩

end CellStore

end Peat.Storage
