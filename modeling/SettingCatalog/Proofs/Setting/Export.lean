import SettingCatalog.Proofs.Json.Pretty
import SettingCatalog.Proofs.Json.Records
import SettingCatalog.Setting.Export

/-! Records come back from their JSON text, on one line or indented. A record without flags has no
member for them, and the empty list is what stands for a member that is left out. -/

namespace SettingCatalog

open Json

namespace Record

def slots : Slots Draft where
  all :=
    [.required "name" [] text (·.name) (fun d v => { d with name := some v })
       (fun v s => v = .text s) fun _ _ => rfl,
     .required "rawName" [] text (·.rawName) (fun d v => { d with rawName := some v })
       (fun v s => v = .text s) fun _ _ => rfl,
     .required "type" [] text (·.valueType) (fun d v => { d with valueType := some v })
       (fun v s => v = .text s) fun _ _ => rfl,
     .elective "properties" [] (list text) (·.properties)
       (fun d v => { d with properties := some v })
       (Elements fun v s => v = .text s) fun _ _ => rfl,
     .required "defaultValue" [] text (·.defaultValue)
       (fun d v => { d with defaultValue := some v })
       (fun v s => v = .text s) fun _ _ => rfl,
     .required "sourceLine" [] word (·.sourceLine) (fun d v => { d with sourceLine := some v })
       (fun v w => v = .ofNat w.toNat) fun _ _ => rfl,
     .required "sourceFile" [] text (·.sourceFile) (fun d v => { d with sourceFile := some v })
       (fun v s => v = .text s) fun _ _ => rfl]
  independent := by
    simp only [List.pairwise_cons, List.forall_mem_cons, List.not_mem_nil, false_imp_iff,
      implies_true, and_true, List.Pairwise.nil]
    repeat' apply And.intro
    all_goals exact ⟨by simp, fun _ _ => rfl, fun _ _ => rfl⟩
  ext s t h := by
    simp only [List.forall_mem_cons, List.not_mem_nil, false_imp_iff, implies_true, and_true] at h
    cases s
    cases t
    simpa [Slot.required, Slot.elective] using h

lemma slots_describes : slots.Describes schema .empty where
  fields_eq := rfl
  get_empty := by simp [slots, Slot.required, Slot.elective, Draft.empty]

lemma slots_reads (bound : ℕ) : ∀ p ∈ slots.all, p.Reads bound := by
  have texts {v : Value} {n : Bytes} (hv : Spells v n) :
      ReadsAs (list text) (Elements (fun v s => v = .text s) v) n :=
    list_readsAs hv fun _ _ hs _ => text_readsAs hs
  simp only [slots, List.forall_mem_cons, List.not_mem_nil, false_imp_iff, implies_true, and_true]
  refine ⟨?_, ?_, ?_, ?_, ?_, ?_, ?_⟩
  · exact Slot.required_reads _ _ _ _ _ fun v n hv _ => text_readsAs hv
  · exact Slot.required_reads _ _ _ _ _ fun v n hv _ => text_readsAs hv
  · exact Slot.required_reads _ _ _ _ _ fun v n hv _ => text_readsAs hv
  · exact Slot.elective_reads _ _ _ _ _ fun v n hv _ => texts hv
  · exact Slot.required_reads _ _ _ _ _ fun v n hv _ => text_readsAs hv
  · exact Slot.required_reads _ _ _ _ _ fun v n hv _ => word_readsAs hv
  · exact Slot.required_reads _ _ _ _ _ fun v n hv _ => text_readsAs hv

lemma read_readsAs {v : Value} {m : Bytes} (h : Spells v m) :
    ReadsAs Record.read (fun r => ∃ d, slots.Reflects v d ∧ r = d.finish) m :=
  (slots_describes.read_readsAs (slots_reads m.length) h (by omega)).map Draft.finish

/-! ### What is written -/

def flagsValue? (r : Record) : Option Value :=
  if r.properties.isEmpty then none else some (.array (r.properties.map Value.text))

def members (r : Record) : List (String × Value) :=
  [("name", .text r.name), ("rawName", .text r.rawName), ("type", .text r.valueType)]
    ++ r.flagsValue?.toList.map ("properties", ·)
    ++ [("defaultValue", .text r.defaultValue), ("sourceLine", .ofNat r.sourceLine.toNat),
      ("sourceFile", .text r.sourceFile)]

lemma toJson_eq (r : Record) : r.toJson = .object r.members := by
  rw [toJson, members, flagsValue?]
  split <;> rfl

lemma proper_toJson (r : Record) : Proper r.toJson := by
  have hflags : ∀ v ∈ r.flagsValue?, Proper v := by
    intro v hv
    rw [flagsValue?] at hv
    split at hv
    · cases hv
    · cases hv
      refine .array fun u hu => ?_
      obtain ⟨s, -, rfl⟩ := List.mem_map.mp hu
      exact .text s
  rw [toJson_eq]
  refine .object ?_
  simp only [members, List.forall_mem_append, List.forall_mem_cons, List.not_mem_nil, false_imp_iff,
    implies_true, and_true, List.forall_mem_map, Option.mem_toList]
  exact ⟨⟨⟨.text _, .text _, .text _⟩, hflags⟩, .text _, proper_ofNat _, .text _⟩

def draft (r : Record) : Draft :=
  ⟨some r.name, some r.rawName, some r.valueType,
    if r.properties.isEmpty then none else some r.properties, some r.defaultValue,
    some r.sourceLine, some r.sourceFile⟩

lemma finish_draft (r : Record) : r.draft.finish = r := by
  obtain ⟨name, rawName, valueType, properties, defaultValue, sourceLine, sourceFile⟩ := r
  cases properties <;> rfl

lemma rel_flagsValue? (r : Record) :
    Option.Rel (Elements fun v s => v = .text s) r.flagsValue? r.draft.properties := by
  rw [flagsValue?, draft]
  cases r.properties with
  | nil => exact .none
  | cons s ss =>
    refine .some ⟨_, rfl, ?_⟩
    rw [List.forall₂_map_left_iff, List.forall₂_same]
    exact fun _ _ => rfl

lemma valuesOf_members (r : Record) :
    valuesOf ["name"] r.members = [.text r.name] ∧
    valuesOf ["rawName"] r.members = [.text r.rawName] ∧
    valuesOf ["type"] r.members = [.text r.valueType] ∧
    valuesOf ["properties"] r.members = r.flagsValue?.toList ∧
    valuesOf ["defaultValue"] r.members = [.text r.defaultValue] ∧
    valuesOf ["sourceLine"] r.members = [.ofNat r.sourceLine.toNat] ∧
    valuesOf ["sourceFile"] r.members = [.text r.sourceFile] := by
  cases h : r.flagsValue? <;> simp [members, valuesOf, h]

lemma reflects_toJson (r : Record) : slots.Reflects r.toJson r.draft := by
  obtain ⟨hname, hraw, htype, hflags, hdefault, hline, hfile⟩ := r.valuesOf_members
  rw [toJson_eq]
  refine ⟨trivial, ?_⟩
  simp only [slots, Slot.forall_getElem?_cons, Slot.required_names, Slot.elective_names]
  refine ⟨⟨some _, hname, .some rfl, by simp⟩, ⟨some _, hraw, .some rfl, by simp⟩,
    ⟨some _, htype, .some rfl, by simp⟩, ⟨r.flagsValue?, hflags, r.rel_flagsValue?, fun _ => rfl⟩,
    ⟨some _, hdefault, .some rfl, by simp⟩, ⟨some _, hline, .some rfl, by simp⟩,
    ⟨some _, hfile, .some rfl, by simp⟩, by simp⟩

end Record

namespace Export

open Text.Utf8

lemma proper_jsonOf (records : List Record) : Proper (jsonOf records) := by
  refine .array fun v hv => ?_
  obtain ⟨r, -, rfl⟩ := List.mem_map.mp hv
  exact r.proper_toJson

/-- Any text of the value of records is read as these records. -/
lemma decodeAll_of_spells {records : List Record} {m w : Bytes} (h : Spells (jsonOf records) m)
    (hw : Blank w) : Record.decodeAll (m ++ w) = .ok records := by
  have hlist := list_readsAs h fun _ _ hv _ => Record.read_readsAs hv
  apply (hlist.whole Blank.nil hw records).mpr
  refine ⟨_, rfl, ?_⟩
  rw [List.forall₂_map_left_iff, List.forall₂_same]
  exact fun r _ => ⟨r.draft, r.reflects_toJson, r.finish_draft.symm⟩

lemma decodeAll_compact (records : List Record) :
    Record.decodeAll (encode (render .json records)) = .ok records := by
  have h := decodeAll_of_spells (proper_jsonOf records).spells Blank.nil
  rwa [List.append_nil] at h

lemma decodeAll_pretty (records : List Record) :
    Record.decodeAll (encode (render .jsonPretty records)) = .ok records := by
  have h := decodeAll_of_spells ((proper_jsonOf records).spells_pretty 0) blank_lineFeed
  rwa [← encode_append] at h

lemma render_injective {f : ExportFormat}
    (h : ∀ records, Record.decodeAll (encode (render f records)) = .ok records) :
    Function.Injective (render f) := by
  intro records records' heq
  have h' := h records'
  rw [← heq, h] at h'
  exact Except.ok.inj h'

/-- Both JSON formats give back the records that were written, so neither writes two lists of
records alike. -/
theorem json_reads_back :
    (∀ records, Record.decodeAll (encode (render .json records)) = .ok records) ∧
    (∀ records, Record.decodeAll (encode (render .jsonPretty records)) = .ok records) ∧
    Function.Injective (render .json) ∧ Function.Injective (render .jsonPretty) :=
  ⟨decodeAll_compact, decodeAll_pretty, render_injective decodeAll_compact,
    render_injective decodeAll_pretty⟩

end Export

end SettingCatalog
