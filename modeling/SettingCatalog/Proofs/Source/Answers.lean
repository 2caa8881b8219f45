import SettingCatalog.Proofs.Tree.Shape
import SettingCatalog.Source.Service

/-! The JSON values that stand for answers of a service. A text is decoded exactly when its value
has the shape of an answer, and the answer is the one that the value spells. -/

namespace SettingCatalog.Response

open Json

/-- An object that may lack the tree and the message, or an array that has all three. -/
structure Shaped (v : Value) (r : Response) : Prop where
  complete : ∀ vs, v = .array vs → vs.length = 3
  status : Given v 0 ["status"] (some (.text r.status))
  data : ∃ o, Given v 1 ["data"] o ∧
    Defaulted (fun v o => ∃ n, Node.Shaped v n ∧ o = some n) none o r.data
  message : ∃ o, Given v 2 ["message"] o ∧
    Defaulted (fun v o => ∃ s, v = .text s ∧ o = some s) none o r.message

def slots (tree : Reader Node) : Slots Draft where
  all :=
    [.required "status" [] text (·.status) (fun d v => { d with status := some v })
       (fun v s => v = .text s) fun _ _ => rfl,
     .electiveMember "data" (nullable tree) (·.data) (fun d v => { d with data := some v })
       (OrNull (fun v o => ∃ n, Node.Shaped v n ∧ o = some n) none) fun _ _ => rfl,
     .electiveMember "message" (nullable text) (·.message)
       (fun d v => { d with message := some v })
       (OrNull (fun v o => ∃ s, v = .text s ∧ o = some s) none) fun _ _ => rfl]
  independent := by
    simp only [List.pairwise_cons, List.forall_mem_cons, List.not_mem_nil, false_imp_iff,
      implies_true, and_true, List.Pairwise.nil]
    repeat' apply And.intro
    all_goals exact ⟨by simp, fun _ _ => rfl, fun _ _ => rfl⟩
  ext s t h := by
    simp only [List.forall_mem_cons, List.not_mem_nil, false_imp_iff, implies_true, and_true] at h
    cases s
    cases t
    simpa [Slot.electiveMember, Slot.required] using h

lemma slots_describes (tree : Reader Node) :
    (slots tree).Describes (schema tree) ⟨none, none, none⟩ where
  fields_eq := rfl
  get_empty := by simp [slots, Slot.electiveMember, Slot.required]

lemma slots_reads (bound : ℕ) : ∀ p ∈ (slots (Node.read bound)).all, p.Reads bound := by
  simp only [slots, List.forall_mem_cons, List.not_mem_nil, false_imp_iff, implies_true, and_true]
  refine ⟨?_, ?_, ?_⟩
  · exact Slot.required_reads _ _ _ _ _ fun v n hv _ => text_readsAs hv
  · exact Slot.electiveMember_reads _ _ _ _ fun v n hv hn =>
      nullable_readsAs hv (Node.read_readsAs bound hv hn)
  · exact Slot.electiveMember_reads _ _ _ _ fun v n hv _ => nullable_readsAs hv (text_readsAs hv)

lemma reflects_iff {tree : Reader Node} {v : Value} {d : Draft} :
    (slots tree).Reflects v d ↔ Holds 3 v ∧
      (∃ o, Given v 0 ["status"] o ∧ Option.Rel (fun v s => v = .text s) o d.status ∧
        (o = none → False)) ∧
      (∃ o, Given v 1 ["data"] o ∧
        Option.Rel (OrNull (fun v o => ∃ n, Node.Shaped v n ∧ o = some n) none) o d.data ∧
        (o = none → ∀ vs, v ≠ .array vs)) ∧
      ∃ o, Given v 2 ["message"] o ∧
        Option.Rel (OrNull (fun v o => ∃ s, v = .text s ∧ o = some s) none) o d.message ∧
        (o = none → ∀ vs, v ≠ .array vs) := by
  rw [Slots.Reflects]
  simp only [slots, Slot.forall_getElem?_cons]
  simp only [Slot.electiveMember, Slot.required, RecordField.mayLack_required,
    RecordField.mayLack_electiveMember, implies_true, and_true, List.getElem?_nil, reduceCtorEq,
    false_imp_iff]
  rfl

lemma shaped_iff {tree : Reader Node} {v : Value} {r : Response} :
    (∃ d, (slots tree).Reflects v d ∧
      r = ⟨d.status.getD "", d.data.getD none, d.message.getD none⟩) ↔ Shaped v r := by
  have hdata : ∀ o : Option Node, ¬ ∃ n, Node.Shaped .null n ∧ o = some n := by
    rintro o ⟨n, hn, -⟩
    cases hn with
    | mk hholds => exact hholds
  have hmessage : ∀ o : Option String, ¬ ∃ s, Value.null = .text s ∧ o = some s := by simp
  simp only [reflects_iff]
  constructor
  · rintro ⟨⟨status, data, message⟩,
      ⟨hh, ⟨s, hs, hsr, hsome⟩, ⟨o, ho, hor, -⟩, ⟨m, hm, hmr, hlast⟩⟩, rfl⟩
    refine ⟨?_, ?_, ⟨o, ho, (defaulted_iff hdata).mpr ⟨data, hor, rfl⟩⟩,
      m, hm, (defaulted_iff hmessage).mpr ⟨message, hmr, rfl⟩⟩
    · rintro vs rfl
      have hgiven : vs[2]? ≠ none := by
        intro hnone
        exact hlast (hm.symm.trans hnone) vs rfl
      have hlength : vs.length ≤ 3 := hh
      rw [ne_eq, List.getElem?_eq_none_iff] at hgiven
      omega
    · cases hsr with
      | none => exact absurd rfl hsome
      | some heq => exact heq ▸ hs
  · rintro ⟨hcomplete, hs, ⟨o, ho, hod⟩, ⟨m, hm, hmd⟩⟩
    obtain ⟨data, hor, hdata⟩ := (defaulted_iff hdata).mp hod
    obtain ⟨message, hmr, hmessage⟩ := (defaulted_iff hmessage).mp hmd
    have hlast {i : ℕ} {names : List String} {o : Option Value} (hi : i < 3)
        (hgiven : Given v i names o) : o = none → ∀ vs, v ≠ .array vs := by
      rintro rfl vs rfl
      have hlength := hcomplete vs rfl
      have hnone : vs.length ≤ i := List.getElem?_eq_none_iff.mp hgiven
      omega
    refine ⟨⟨some r.status, data, message⟩, ⟨?_, ⟨_, hs, .some rfl, by simp⟩,
      ⟨o, ho, hor, hlast (by omega) ho⟩, m, hm, hmr, hlast (by omega) hm⟩, ?_⟩
    · cases v with
      | object ms => trivial
      | array vs => exact (hcomplete vs rfl).le
      | _ => exact hs
    · rw [← hdata, ← hmessage]
      rfl

lemma read_readsAs (depth : ℕ) {v : Value} {m : Bytes} (h : Spells v m) (hm : m.length ≤ depth) :
    ReadsAs (Response.read depth) (Shaped v) m := by
  have hread := (slots_describes _).read_readsAs (slots_reads depth) h (by omega)
  exact (hread.map _).congr fun r => shaped_iff

/-- The texts that are answers, and the answers that they are. -/
theorem decode_eq_ok_iff {v : Value} {bs : Bytes} (h : Document v bs) (r : Response) :
    Response.decode bs = .ok r ↔ Shaped v r := by
  cases h with
  | @mk l m r' hl hm hr =>
    exact (read_readsAs ((l ++ (m ++ r')).length + 1) hm (by simp; omega)).whole hl hr r

end SettingCatalog.Response
