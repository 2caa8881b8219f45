import SettingCatalog.Proofs.Json.Compact

/-! The indented text of a value is one of its texts. It has white space where the compact text has
none: in front of every item, behind the last one, and behind the colon of a member. -/

namespace SettingCatalog.Json

open Text.Utf8

lemma Blank.append {w w' : Bytes} (h : Blank w) (h' : Blank w') : Blank (w ++ w') := by
  intro b hb
  rcases List.mem_append.mp hb with hb | hb
  · exact h b hb
  · exact h' b hb

lemma blank_spaces (n : ℕ) : Blank (encode ("".pushn ' ' n)) := by
  have hspace : Blank (encode " ") := by simp [Blank, show encode " " = [0x20] by decide, isSpace]
  induction n with
  | zero => exact Blank.nil
  | succ n ih =>
    have hpush : "".pushn ' ' (n + 1) = "".pushn ' ' n ++ " " := rfl
    rw [hpush, encode_append]
    exact ih.append hspace

lemma blank_lineFeed : Blank (encode "\n") := by
  simp [Blank, show encode "\n" = [0xa] by decide, isSpace]

lemma blank_newline (depth : ℕ) : Blank (encode (Value.newline depth)) := by
  rw [Value.newline, encode_append]
  exact blank_lineFeed.append (blank_spaces _)

namespace Value

def indented (line : String) : List String → String
  | [] => ""
  | [t] => line ++ t
  | t :: ts => line ++ t ++ "," ++ indented line ts

def prettyMember (depth : ℕ) (m : String × Value) : String :=
  quote m.1 ++ ": " ++ m.2.pretty depth

lemma prettyItems_eq (depth : ℕ) (vs : List Value) :
    prettyItems depth vs = indented (newline depth) (vs.map (pretty depth)) := by
  induction vs with
  | nil => rfl
  | cons v vs ih =>
    cases vs with
    | nil => rfl
    | cons u vs =>
      have hcons : prettyItems depth (v :: u :: vs) =
          newline depth ++ v.pretty depth ++ "," ++ prettyItems depth (u :: vs) := rfl
      rw [hcons, ih]
      rfl

lemma prettyMembers_eq (depth : ℕ) (ms : List (String × Value)) :
    prettyMembers depth ms = indented (newline depth) (ms.map (prettyMember depth)) := by
  induction ms with
  | nil => rfl
  | cons m ms ih =>
    cases ms with
    | nil => simp [prettyMembers, indented, prettyMember, String.append_assoc]
    | cons n ms =>
      have hcons : prettyMembers depth (m :: n :: ms) =
          newline depth ++ quote m.1 ++ ": " ++ m.2.pretty depth ++ "," ++
            prettyMembers depth (n :: ms) := rfl
      rw [hcons, ih]
      simp [indented, prettyMember, String.append_assoc]

end Value

open Value

lemma listed_indented {α : Type} {P : α → Bytes → Prop} {write : α → String} {line : String}
    {w : Bytes} (hline : Blank (encode line)) (hw : Blank w) {a : α} {as : List α}
    (h : ∀ x ∈ a :: as, P x (encode (write x))) :
    Listed P (a :: as) (encode (indented line ((a :: as).map write)) ++ w) := by
  have hcomma : encode "," = [Mark.comma] := by decide
  induction as generalizing a with
  | nil =>
    have hl := Listed.cons hline (h a List.mem_cons_self) (.nil hw)
    simpa [indented, encode_append] using hl
  | cons b as ih =>
    have hrest := ih fun x hx => h x (List.mem_cons_of_mem a hx)
    have hcons : indented line ((a :: b :: as).map write) =
        line ++ write a ++ "," ++ indented line ((b :: as).map write) := rfl
    rw [hcons]
    generalize indented line ((b :: as).map write) = tail at hrest
    generalize htext : encode tail ++ w = text at hrest
    cases hrest with
    | cons hl hb hf =>
      have hfollowed := Followed.cons Blank.nil hl hb hf
      have hlisted := Listed.cons hline (h a List.mem_cons_self) hfollowed
      simpa [encode_append, hcomma, ← htext] using hlisted

lemma member_pretty {m : String × Value} {depth : ℕ} (h : Spells m.2 (encode (m.2.pretty depth))) :
    Member Spells m (encode (prettyMember depth m)) := by
  have hc : encode ": " = [Mark.colon, 0x20] := by decide
  have hspace : Blank [0x20] := by simp [Blank, isSpace]
  have hm := Member.mk (quoted_escape m.1.toList) Blank.nil hspace h
  simpa [prettyMember, encode_append, encode_quote, hc] using hm

lemma spells_pretty_array {vs : List Value} {depth : ℕ}
    (h : ∀ v ∈ vs, Spells v (encode (v.pretty (depth + 1)))) :
    Spells (.array vs) (encode ((Value.array vs).pretty depth)) := by
  have hopen : encode "[" = [Mark.openBracket] := by decide
  have hclose : encode "]" = [Mark.closeBracket] := by decide
  cases vs with
  | nil =>
    have htext : encode ((Value.array []).pretty depth) =
        [Mark.openBracket, Mark.closeBracket] := by
      rw [pretty]
      decide
    rw [htext]
    exact Spells.array (.nil Blank.nil)
  | cons v vs =>
    have hl := listed_indented (blank_newline (depth + 1)) (blank_newline depth) h
    have hs := Spells.array hl
    rw [← prettyItems_eq] at hs
    simpa [pretty, encode_append, hopen, hclose] using hs

lemma spells_pretty_object {ms : List (String × Value)} {depth : ℕ}
    (h : ∀ m ∈ ms, Spells m.2 (encode (m.2.pretty (depth + 1)))) :
    Spells (.object ms) (encode ((Value.object ms).pretty depth)) := by
  have hopen : encode "\x7b" = [Mark.openBrace] := by decide
  have hclose : encode "\x7d" = [Mark.closeBrace] := by decide
  cases ms with
  | nil =>
    have htext : encode ((Value.object []).pretty depth) = [Mark.openBrace, Mark.closeBrace] := by
      rw [pretty]
      decide
    rw [htext]
    exact Spells.object (.nil Blank.nil)
  | cons m ms =>
    have hl := listed_indented (blank_newline (depth + 1)) (blank_newline depth)
      fun n hn => member_pretty (h n hn)
    have hs := Spells.object hl
    rw [← prettyMembers_eq] at hs
    simpa [pretty, encode_append, hopen, hclose] using hs

theorem Proper.spells_pretty {v : Value} (h : Proper v) (depth : ℕ) :
    Spells v (encode (v.pretty depth)) := by
  induction h generalizing depth with
  | null => exact Proper.null.spells
  | bool b => exact (Proper.bool b).spells
  | number hn => exact (Proper.number hn).spells
  | text s => exact (Proper.text s).spells
  | array _ ih => exact spells_pretty_array fun v hv => ih v hv (depth + 1)
  | object _ ih => exact spells_pretty_object fun m hm => ih m hm (depth + 1)

end SettingCatalog.Json
