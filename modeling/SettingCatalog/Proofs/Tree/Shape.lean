import SettingCatalog.Proofs.Json.Compact
import SettingCatalog.Proofs.Json.Records
import SettingCatalog.Proofs.Tree.Attributes
import SettingCatalog.Tree.Decode

/-! The JSON values that stand for trees. A text is read as a tree exactly when its value has the
shape of one, and the tree is the one that the value spells. -/

namespace SettingCatalog

open Json

/-! ### Shapes -/

def Unset (o : Option Value) : Prop := o = none ∨ o = some .null

/-- A field holds what is given, or its default. -/
def Defaulted {α : Type} (shape : Value → α → Prop) (default : α) (o : Option Value) (a : α) :
    Prop :=
  Unset o ∧ a = default ∨ ∃ v, o = some v ∧ shape v a

/-- An object of texts; of several with one name the last one counts. -/
def Attributes.Shaped (v : Value) (a : Attributes) : Prop :=
  ∃ ps : List (String × String), v = .object (ps.map fun p => (p.1, .text p.2)) ∧
    ∀ name, a.get? name = ps.reverse.lookup name

namespace Position

/-- A coordinate is an integer without sign, fraction and exponent, and zero if it is left out. -/
def Coordinate (o : Option Value) (w : UInt32) : Prop :=
  o = none ∧ w = 0 ∨ o = some (.ofNat w.toNat)

structure Shaped (v : Value) (p : Position) : Prop where
  holds : Holds 2 v
  line : ∃ o, Given v 0 ["line", "Line"] o ∧ Coordinate o p.line
  col : ∃ o, Given v 1 ["col", "Col"] o ∧ Coordinate o p.col

end Position

inductive Node.Shaped : Value → Node → Prop
  | mk {v : Value} {n : Node} {token role attributes children position : Option Value}
      {vs : List Value} : Holds 6 v →
      Given v 0 ["tag", "InternalType"] (some (.text n.tag)) →
      Given v 1 ["token", "Token"] token →
      Defaulted (fun v s => v = .text s) "" token n.token →
      Given v 2 ["role", "Role"] role →
      Defaulted (fun v o => ∃ s, v = .text s ∧ o = some s) none role n.role →
      Given v 3 ["attributes", "Properties"] attributes →
      Defaulted Attributes.Shaped .empty attributes n.attributes →
      Given v 4 ["children", "Children"] children →
      Defaulted (fun v vs => v = .array vs) [] children vs →
      List.Forall₂ Shaped vs n.children →
      Given v 5 ["position", "StartPosition"] position →
      Defaulted (fun v o => ∃ p, Position.Shaped v p ∧ o = some p) none position n.position →
      Shaped v n

/-! ### Positions -/

namespace Position

def slots : Slots Draft where
  all :=
    [.elective "line" ["Line"] word (·.line) (fun d v => { d with line := some v })
       (fun v w => v = .ofNat w.toNat) fun _ _ => rfl,
     .elective "col" ["Col"] word (·.col) (fun d v => { d with col := some v })
       (fun v w => v = .ofNat w.toNat) fun _ _ => rfl]
  independent := by
    simp only [List.pairwise_cons, List.forall_mem_cons, List.not_mem_nil, false_imp_iff,
      implies_true, and_true, List.Pairwise.nil]
    exact ⟨by simp, fun _ _ => rfl, fun _ _ => rfl⟩
  ext s t h := by
    simp only [List.forall_mem_cons, List.not_mem_nil, false_imp_iff, implies_true, and_true] at h
    cases s
    cases t
    simpa [Slot.elective] using h

lemma slots_describes : slots.Describes schema ⟨none, none⟩ where
  fields_eq := rfl
  get_empty := by simp [slots, Slot.elective]

lemma slots_reads (bound : ℕ) : ∀ p ∈ slots.all, p.Reads bound := by
  simp only [slots, List.forall_mem_cons, List.not_mem_nil, false_imp_iff, implies_true, and_true]
  exact ⟨Slot.elective_reads _ _ _ _ _ fun v n hv _ => word_readsAs hv,
    Slot.elective_reads _ _ _ _ _ fun v n hv _ => word_readsAs hv⟩

lemma coordinate_iff {o : Option Value} {w : UInt32} :
    Coordinate o w ↔
      ∃ x : Option UInt32, Option.Rel (fun v w => v = .ofNat w.toNat) o x ∧ w = x.getD 0 := by
  cases o with
  | none => simp [Coordinate, Slots.rel_none_left]
  | some v => simp [Coordinate, Slots.rel_some_left]

lemma reflects_iff {v : Value} {d : Draft} :
    slots.Reflects v d ↔ Holds 2 v ∧
      (∃ o, Given v 0 ["line", "Line"] o ∧ Option.Rel (fun v w => v = .ofNat w.toNat) o d.line) ∧
      ∃ o, Given v 1 ["col", "Col"] o ∧ Option.Rel (fun v w => v = .ofNat w.toNat) o d.col := by
  rw [Slots.Reflects]
  simp only [slots, Slot.forall_getElem?_cons]
  simp only [Slot.elective, RecordField.mayLack_elective, implies_true, and_true,
    List.getElem?_nil, reduceCtorEq, false_imp_iff]
  rfl

lemma shaped_iff {v : Value} {p : Position} :
    (∃ d, slots.Reflects v d ∧ p = ⟨d.line.getD 0, d.col.getD 0⟩) ↔ Shaped v p := by
  simp only [reflects_iff]
  constructor
  · rintro ⟨d, ⟨hh, ⟨l, hl, hlr⟩, c, hc, hcr⟩, rfl⟩
    exact ⟨hh, ⟨l, hl, coordinate_iff.mpr ⟨d.line, hlr, rfl⟩⟩,
      c, hc, coordinate_iff.mpr ⟨d.col, hcr, rfl⟩⟩
  · rintro ⟨hh, ⟨l, hl, hlw⟩, c, hc, hcw⟩
    obtain ⟨x, hx, hline⟩ := coordinate_iff.mp hlw
    obtain ⟨y, hy, hcol⟩ := coordinate_iff.mp hcw
    refine ⟨⟨x, y⟩, ⟨hh, ⟨l, hl, hx⟩, c, hc, hy⟩, ?_⟩
    cases p
    simp only at hline hcol
    rw [hline, hcol]

theorem read_readsAs {v : Value} {m : Bytes} (h : Spells v m) :
    ReadsAs Position.read (Shaped v) m := by
  have hread := slots_describes.read_readsAs (slots_reads m.length) h (by omega)
  refine (hread.map fun d => (⟨d.line.getD 0, d.col.getD 0⟩ : Position)).congr fun p => ?_
  exact shaped_iff

end Position

/-! ### Nodes -/

lemma defaulted_iff {α : Type} {shape : Value → α → Prop} {default a : α} {o : Option Value}
    (hnull : ∀ a, ¬ shape .null a) :
    Defaulted shape default o a ↔
      ∃ x, Option.Rel (OrNull shape default) o x ∧ a = x.getD default := by
  cases o with
  | none => simp [Defaulted, Unset, Slots.rel_none_left]
  | some v =>
    by_cases hv : v = .null
    · simp [Defaulted, Unset, Slots.rel_some_left, OrNull, hv, hnull]
    · simp [Defaulted, Unset, Slots.rel_some_left, OrNull, hv]

lemma Attributes.shaped_iff {v : Value} {a : Attributes} :
    Texts (fun name value a => a.insert name value) Attributes.empty v a ↔
      Attributes.Shaped v a := by
  have hfold : ∀ (ps : List (String × String)) name,
      (ps.foldl (fun a p => a.insert p.1 p.2) Attributes.empty).get? name =
        ps.reverse.lookup name := by
    intro ps name
    rw [get?_foldl_insert]
    exact Option.or_none
  constructor
  · rintro ⟨ps, rfl, rfl⟩
    exact ⟨ps, rfl, hfold ps⟩
  · rintro ⟨ps, rfl, ha⟩
    exact ⟨ps, rfl, ext_get? fun name => (ha name).trans (hfold ps name).symm⟩

namespace Node

def slots (child : Reader Node) : Slots Draft where
  all :=
    [.required "tag" ["InternalType"] text (·.tag) (fun d v => { d with tag := some v })
       (fun v s => v = .text s) fun _ _ => rfl,
     .elective "token" ["Token"] (nullableOr "" text) (·.token)
       (fun d v => { d with token := some v }) (OrNull (fun v s => v = .text s) "") fun _ _ => rfl,
     .elective "role" ["Role"] (nullable text) (·.role) (fun d v => { d with role := some v })
       (OrNull (fun v o => ∃ s, v = .text s ∧ o = some s) none) fun _ _ => rfl,
     .elective "attributes" ["Properties"] (nullableOr .empty readAttributes) (·.attributes)
       (fun d v => { d with attributes := some v }) (OrNull Attributes.Shaped .empty)
       fun _ _ => rfl,
     .elective "children" ["Children"] (nullableOr [] (list child)) (·.children)
       (fun d v => { d with children := some v }) (OrNull (Elements Shaped) []) fun _ _ => rfl,
     .elective "position" ["StartPosition"] (nullable Position.read) (·.position)
       (fun d v => { d with position := some v })
       (OrNull (fun v o => ∃ p, Position.Shaped v p ∧ o = some p) none) fun _ _ => rfl]
  independent := by
    simp only [List.pairwise_cons, List.forall_mem_cons, List.not_mem_nil, false_imp_iff,
      implies_true, and_true, List.Pairwise.nil]
    repeat' apply And.intro
    all_goals exact ⟨by simp, fun _ _ => rfl, fun _ _ => rfl⟩
  ext s t h := by
    simp only [List.forall_mem_cons, List.not_mem_nil, false_imp_iff, implies_true, and_true] at h
    cases s
    cases t
    simpa [Slot.elective, Slot.required] using h

lemma slots_describes (child : Reader Node) : (slots child).Describes (schema child) .empty where
  fields_eq := rfl
  get_empty := by simp [slots, Slot.elective, Slot.required, Draft.empty]

lemma slots_reads {child : Reader Node} {bound : ℕ}
    (hchild : ∀ v n, Spells v n → n.length < bound → ReadsAs child (Shaped v) n) :
    ∀ p ∈ (slots child).all, p.Reads bound := by
  simp only [slots, List.forall_mem_cons, List.not_mem_nil, false_imp_iff, implies_true, and_true]
  refine ⟨?_, ?_, ?_, ?_, ?_, ?_⟩
  · exact Slot.required_reads _ _ _ _ _ fun v n hv _ => text_readsAs hv
  · exact Slot.elective_reads _ _ _ _ _ fun v n hv _ => nullableOr_readsAs "" hv (text_readsAs hv)
  · exact Slot.elective_reads _ _ _ _ _ fun v n hv _ => nullable_readsAs hv (text_readsAs hv)
  · refine Slot.elective_reads _ _ _ _ _ fun v n hv _ => nullableOr_readsAs Attributes.empty hv ?_
    exact (dictionary_readsAs _ _ hv).congr fun a => Attributes.shaped_iff
  · refine Slot.elective_reads _ _ _ _ _ fun v n hv hn => nullableOr_readsAs [] hv ?_
    exact list_readsAs hv fun v' n' hv' hn' => hchild v' n' hv' (by omega)
  · exact Slot.elective_reads _ _ _ _ _ fun v n hv _ =>
      nullable_readsAs hv (Position.read_readsAs hv)

lemma reflects_iff {child : Reader Node} {v : Value} {d : Draft} :
    (slots child).Reflects v d ↔ Holds 6 v ∧
      (∃ o, Given v 0 ["tag", "InternalType"] o ∧ Option.Rel (fun v s => v = .text s) o d.tag ∧
        (o = none → False)) ∧
      (∃ o, Given v 1 ["token", "Token"] o ∧
        Option.Rel (OrNull (fun v s => v = .text s) "") o d.token) ∧
      (∃ o, Given v 2 ["role", "Role"] o ∧
        Option.Rel (OrNull (fun v o => ∃ s, v = .text s ∧ o = some s) none) o d.role) ∧
      (∃ o, Given v 3 ["attributes", "Properties"] o ∧
        Option.Rel (OrNull Attributes.Shaped .empty) o d.attributes) ∧
      (∃ o, Given v 4 ["children", "Children"] o ∧
        Option.Rel (OrNull (Elements Shaped) []) o d.children) ∧
      ∃ o, Given v 5 ["position", "StartPosition"] o ∧
        Option.Rel (OrNull (fun v o => ∃ p, Position.Shaped v p ∧ o = some p) none) o
          d.position := by
  rw [Slots.Reflects]
  simp only [slots, Slot.forall_getElem?_cons]
  simp only [Slot.elective, Slot.required, RecordField.mayLack_elective,
    RecordField.mayLack_required, implies_true, and_true, List.getElem?_nil, reduceCtorEq,
    false_imp_iff]
  rfl

lemma defaulted_elements_iff {o : Option Value} {ns : List Node} :
    Defaulted (Elements Shaped) [] o ns ↔
      ∃ vs, Defaulted (fun v vs => v = .array vs) [] o vs ∧ List.Forall₂ Shaped vs ns := by
  constructor
  · rintro (⟨ho, rfl⟩ | ⟨-, rfl, vs, rfl, hns⟩)
    · exact ⟨[], .inl ⟨ho, rfl⟩, .nil⟩
    · exact ⟨vs, .inr ⟨.array vs, rfl, rfl⟩, hns⟩
  · rintro ⟨vs, ⟨ho, rfl⟩ | ⟨-, rfl, rfl⟩, hns⟩
    · exact .inl ⟨ho, List.forall₂_nil_left_iff.mp hns⟩
    · exact .inr ⟨.array vs, rfl, vs, rfl, hns⟩

lemma not_shaped_null (p : Position) : ¬ Position.Shaped .null p := fun h => h.holds

lemma shaped_iff {child : Reader Node} {v : Value} {n : Node} :
    (∃ d, (slots child).Reflects v d ∧ n = d.finish) ↔ Shaped v n := by
  have htext : ∀ s, ¬ Value.null = .text s := by simp
  have hrole : ∀ o : Option String, ¬ ∃ s, Value.null = .text s ∧ o = some s := by simp
  have hattributes : ∀ a, ¬ Attributes.Shaped .null a := by simp [Attributes.Shaped]
  have hchildren : ∀ ns, ¬ Elements Shaped .null ns := by simp [Elements]
  have hposition : ∀ o : Option Position, ¬ ∃ p, Position.Shaped .null p ∧ o = some p := by
    simp [not_shaped_null]
  simp only [reflects_iff]
  constructor
  · rintro ⟨d, ⟨hh, ⟨o, ho, hor, hsome⟩, ⟨t, ht, htr⟩, ⟨r, hr, hrr⟩, ⟨a, ha, har⟩, ⟨c, hc, hcr⟩,
      ⟨p, hp, hpr⟩⟩, rfl⟩
    have htag : o = some (.text (d.tag.getD "")) := by
      generalize d.tag = x at hor
      cases hor with
      | none => exact absurd rfl hsome
      | some h => rw [h, Option.getD_some]
    have hcd := (defaulted_iff hchildren).mpr ⟨d.children, hcr, rfl⟩
    obtain ⟨vs, hvs, hns⟩ := defaulted_elements_iff.mp hcd
    exact .mk hh (htag ▸ ho) ht ((defaulted_iff htext).mpr ⟨d.token, htr, rfl⟩) hr
      ((defaulted_iff hrole).mpr ⟨d.role, hrr, rfl⟩) ha
      ((defaulted_iff hattributes).mpr ⟨d.attributes, har, rfl⟩) hc hvs hns hp
      ((defaulted_iff hposition).mpr ⟨d.position, hpr, rfl⟩)
  · rintro ⟨hh, htag, ht, htd, hr, hrd, ha, had, hc, hcd, hcs, hp, hpd⟩
    obtain ⟨t, htr, htv⟩ := (defaulted_iff htext).mp htd
    obtain ⟨r, hrr, hrv⟩ := (defaulted_iff hrole).mp hrd
    obtain ⟨a, har, hav⟩ := (defaulted_iff hattributes).mp had
    obtain ⟨c, hcr, hcv⟩ := (defaulted_iff hchildren).mp
      (defaulted_elements_iff.mpr ⟨_, hcd, hcs⟩)
    obtain ⟨p, hpr, hpv⟩ := (defaulted_iff hposition).mp hpd
    refine ⟨⟨some n.tag, t, r, a, c, p⟩, ⟨hh, ⟨_, htag, .some rfl, by simp⟩, ⟨_, ht, htr⟩,
      ⟨_, hr, hrr⟩, ⟨_, ha, har⟩, ⟨_, hc, hcr⟩, ⟨_, hp, hpr⟩⟩, ?_⟩
    rw [Draft.finish, ← htv, ← hrv, ← hav, ← hcv, ← hpv]
    cases n
    rfl

theorem read_readsAs (depth : ℕ) {v : Value} {m : Bytes} (h : Spells v m) (hm : m.length ≤ depth) :
    ReadsAs (Node.read depth) (Shaped v) m := by
  induction depth generalizing v m with
  | zero =>
    obtain ⟨b, tl, rfl, -⟩ := h.opens
    simp at hm
  | succ depth ih =>
    have hreads := slots_reads fun v n hv (hn : n.length < depth + 1) => ih hv (by omega)
    have hread := (slots_describes (Node.read depth)).read_readsAs hreads h (by omega)
    exact (hread.map Draft.finish).congr fun n => shaped_iff

/-! ### Whole texts -/

theorem parse_eq_ok_iff {v : Value} {bs : Bytes} (h : Document v bs) (n : Node) :
    Node.parse bs = .ok n ↔ Shaped v n := by
  cases h with
  | @mk l m r hl hm hr =>
    exact (read_readsAs ((l ++ (m ++ r)).length + 1) hm (by simp; omega)).whole hl hr n

theorem decode_iff_shaped {v : Value} {bs : Bytes} (h : Document v bs) :
    ((∃ t, Node.decode bs = .ok t) ↔ ∃ n, Shaped v n) ∧
      ∀ n, Shaped v n → Node.parse bs = .ok n ∧ Node.decode bs = .ok n.normalize := by
  have hdecode : ∀ t, Node.decode bs = .ok t ↔ ∃ n, Shaped v n ∧ n.normalize = t := by
    intro t
    rw [Node.decode]
    simp only [ok_of_bind, ok_of_pure, parse_eq_ok_iff h]
  refine ⟨?_, fun n hn => ⟨(parse_eq_ok_iff h n).mpr hn, (hdecode _).mpr ⟨n, hn, rfl⟩⟩⟩
  constructor
  · rintro ⟨t, ht⟩
    obtain ⟨n, hn, -⟩ := (hdecode t).mp ht
    exact ⟨n, hn⟩
  · rintro ⟨n, hn⟩
    exact ⟨n.normalize, (hdecode _).mpr ⟨n, hn, rfl⟩⟩

theorem decode_iff_shaped_aliases :
    let v : Value := .object [("x", .array []), ("Children", .array [.array [.text "T", .null]]),
      ("InternalType", .text "R\n"), ("Role", .null)]
    Document v (Text.Utf8.encode v.compact) ∧
      Node.decode (Text.Utf8.encode v.compact) =
        .ok ((ofTag "R\n").withChild (ofTag "T")).normalize := by
  intro v
  have hp : Proper v := by
    refine .object ?_
    simp only [List.forall_mem_cons, List.not_mem_nil, false_imp_iff, implies_true, and_true]
    refine ⟨.array (by simp), .array ?_, .text _, .null⟩
    simp only [List.forall_mem_cons, List.not_mem_nil, false_imp_iff, implies_true, and_true]
    refine .array ?_
    simp only [List.forall_mem_cons, List.not_mem_nil, false_imp_iff, implies_true, and_true]
    exact ⟨.text _, .null⟩
  have hchild : Shaped (.array [.text "T", .null]) (ofTag "T") :=
    .mk (by simp [Holds]) rfl rfl (.inl ⟨.inr rfl, rfl⟩) rfl (.inl ⟨.inl rfl, rfl⟩) rfl
      (.inl ⟨.inl rfl, rfl⟩) rfl (.inl ⟨.inl rfl, rfl⟩) .nil rfl (.inl ⟨.inl rfl, rfl⟩)
  have hs : Shaped v ((ofTag "R\n").withChild (ofTag "T")) :=
    .mk trivial rfl (by rfl) (.inl ⟨.inl rfl, rfl⟩) (by rfl) (.inl ⟨.inr rfl, rfl⟩) (by rfl)
      (.inl ⟨.inl rfl, rfl⟩) (by rfl) (.inr ⟨_, rfl, rfl⟩) (.cons hchild .nil) (by rfl)
      (.inl ⟨.inl rfl, rfl⟩)
  exact ⟨hp.document, ((decode_iff_shaped hp.document).2 _ hs).2⟩

end Node

end SettingCatalog
