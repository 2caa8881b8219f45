import SettingCatalog.Proofs.Json.Compact
import SettingCatalog.Proofs.Tree.Normal
import SettingCatalog.Proofs.Tree.Shape
import SettingCatalog.Tree.Encode

/-! A tree is read back from its JSON text, and a tree that has been read once is read back as it
is. -/

namespace SettingCatalog

open Json

namespace Attributes

lemma proper_toJson (a : Attributes) : Proper a.toJson := by
  refine .object fun p hp => ?_
  obtain ⟨e, -, rfl⟩ := List.mem_map.mp hp
  exact .text e.2

lemma shaped_toJson (a : Attributes) : Shaped a.toJson a :=
  ⟨a.entries, rfl, fun name => (lookup_reverse_entries a name).symm⟩

end Attributes

namespace Position

lemma proper_toJson (p : Position) : Proper p.toJson := by
  refine .object ?_
  simp only [List.forall_mem_cons, List.not_mem_nil, false_imp_iff, implies_true, and_true]
  exact ⟨proper_ofNat _, proper_ofNat _⟩

lemma shaped_toJson (p : Position) : Shaped p.toJson p where
  holds := trivial
  line := ⟨some (.ofNat p.line.toNat), by simp [toJson, Given, valuesOf], .inr rfl⟩
  col := ⟨some (.ofNat p.col.toNat), by simp [toJson, Given, valuesOf], .inr rfl⟩

end Position

namespace Node

def positionJson : Option Position → Value
  | none => .null
  | some p => p.toJson

lemma toJson_eq (n : Node) :
    n.toJson = .object
      [("tag", .text n.tag), ("token", .text n.token), ("role", .ofText? n.role),
        ("attributes", n.attributes.toJson), ("children", .array (n.children.map toJson)),
        ("position", positionJson n.position)] := by
  obtain ⟨tag, token, role, attributes, children, position⟩ := n
  cases position <;> rw [← toJsonAll_eq_map, positionJson, toJson]

theorem proper_toJson (n : Node) : Proper n.toJson := by
  induction n using child_induction with
  | step n ih =>
    have hrole : Proper (.ofText? n.role) := by
      cases n.role with
      | none => exact .null
      | some s => exact .text s
    have hchildren : Proper (.array (n.children.map toJson)) := by
      refine .array fun v hv => ?_
      obtain ⟨m, hm, rfl⟩ := List.mem_map.mp hv
      exact ih m hm
    have hposition : Proper (positionJson n.position) := by
      cases n.position with
      | none => exact .null
      | some p => exact p.proper_toJson
    rw [toJson_eq]
    refine .object ?_
    simp only [List.forall_mem_cons, List.not_mem_nil, false_imp_iff, implies_true, and_true]
    exact ⟨.text _, .text _, hrole, n.attributes.proper_toJson, hchildren, hposition⟩

theorem shaped_toJson (n : Node) : Shaped n.toJson n := by
  induction n using child_induction with
  | step n ih =>
    have hrole : Defaulted (fun v o => ∃ s, v = .text s ∧ o = some s) none
        (some (.ofText? n.role)) n.role := by
      cases n.role with
      | none => exact .inl ⟨.inr rfl, rfl⟩
      | some s => exact .inr ⟨.text s, rfl, s, rfl, rfl⟩
    have hchildren : List.Forall₂ Shaped (n.children.map toJson) n.children := by
      rw [List.forall₂_map_left_iff, List.forall₂_same]
      exact ih
    have hposition : Defaulted (fun v o => ∃ p, Position.Shaped v p ∧ o = some p) none
        (some (positionJson n.position)) n.position := by
      cases n.position with
      | none => exact .inl ⟨.inr rfl, rfl⟩
      | some p => exact .inr ⟨p.toJson, rfl, p, p.shaped_toJson, rfl⟩
    rw [toJson_eq]
    exact .mk trivial (by simp [Given, valuesOf]) (by simp [Given, valuesOf]) (.inr ⟨_, rfl, rfl⟩)
      (by simp [Given, valuesOf]) hrole (by simp [Given, valuesOf])
      (.inr ⟨_, rfl, n.attributes.shaped_toJson⟩) (by simp [Given, valuesOf]) (.inr ⟨_, rfl, rfl⟩)
      hchildren (by simp [Given, valuesOf]) hposition

lemma parse_encodeBytes (n : Node) : Node.parse n.encodeBytes = .ok n :=
  (parse_eq_ok_iff n.proper_toJson.document n).mpr n.shaped_toJson

lemma decode_encodeBytes (n : Node) : Node.decode n.encodeBytes = .ok n.normalize := by
  rw [Node.decode, parse_encodeBytes]
  rfl

lemma normalize_of_decode {bs : Bytes} {t : Node} (h : Node.decode bs = .ok t) :
    t.normalize = t := by
  rw [Node.decode, ok_of_bind] at h
  obtain ⟨n, -, hn⟩ := h
  rw [← ok_of_pure.mp hn, normalize_normalize]

theorem decode_stable :
    (∀ n : Node, Node.parse n.encodeBytes = .ok n ∧ Node.decode n.encodeBytes = .ok n.normalize) ∧
      ∀ (bs : Bytes) (t : Node), Node.decode bs = .ok t → Node.decode t.encodeBytes = .ok t := by
  refine ⟨fun n => ⟨parse_encodeBytes n, decode_encodeBytes n⟩, fun bs t h => ?_⟩
  rw [decode_encodeBytes, normalize_of_decode h]

/-- The role goes from the attribute to its field when the text is read, and stays there. -/
theorem decode_stable_internalRole :
    Node.decode ((ofTag "T").withAttribute roleAttribute "r").encodeBytes =
        .ok ((ofTag "T").withAttribute roleAttribute "r").normalize ∧
      Node.decode ((ofTag "T").withAttribute roleAttribute "r").normalize.encodeBytes =
        .ok ((ofTag "T").withAttribute roleAttribute "r").normalize :=
  ⟨(decode_stable.1 _).2, decode_stable.2 _ _ (decode_stable.1 _).2⟩

end Node

end SettingCatalog
