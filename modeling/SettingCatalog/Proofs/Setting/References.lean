import SettingCatalog.Proofs.Query.Descent
import SettingCatalog.Proofs.Setting.Structure

/-! References to flags, in full and in short. Arguments are given as templates, trees with gaps for
references. Whichever form the references of an argument have, the flags found in it are theirs, in
the order of the document. -/

namespace SettingCatalog

open Vocabulary Structural

namespace Flags

inductive Form where
  | long
  | short

structure Reference where
  space : String
  flag : String
  own : List ℕ → Node

namespace Reference

def name (own : Node) (role : Option String) (token : String) : Node :=
  { own with tag := simpleName, token := token, role := role, children := [] }

def qualified (own : Node) (parts : List Node) : Node :=
  { own with tag := qualifiedName, children := parts }

def tree (anchor : String) (r : Reference) : Form → Node
  | .long =>
    qualified (r.own [])
      [qualified (r.own [0])
          [name (r.own [0, 0]) none r.space, name (r.own [0, 1]) (some nameRole) anchor],
        name (r.own [1]) (some nameRole) r.flag]
  | .short =>
    qualified (r.own [])
      [name (r.own [0]) none anchor, name (r.own [1]) (some nameRole) r.flag]

section Fields

variable (own : Node) (role : Option String) (token : String) (parts : List Node)

@[simp] lemma token_name : (name own role token).token = token := rfl

@[simp] lemma children_qualified : (qualified own parts).children = parts := rfl

@[simp] lemma tagged_name (tag : String) : tagged tag (name own role token) = (simpleName == tag) :=
  rfl

@[simp] lemma tagged_qualified (tag : String) :
    tagged tag (qualified own parts) = (qualifiedName == tag) := rfl

@[simp] lemma playing_name (other : String) :
    playing other (name own role token) = (role == some other) := rfl

@[simp] lemma named_name (other : String) :
    named other (name own role token) = (token == other) := by
  simp [named]

end Fields

end Reference

/-- A tree with gaps for references and no qualified names of its own. -/
inductive Template where
  | gap (r : Reference)
  | node (own : Node) (parts : List Template) (ordinary : own.tag ≠ qualifiedName)

namespace Template

mutual

def fill (anchor : String) (form : Form) : Template → Node
  | gap r => r.tree anchor form
  | node own parts _ => { own with children := fillAll anchor form parts }

def fillAll (anchor : String) (form : Form) : List Template → List Node
  | [] => []
  | t :: ts => fill anchor form t :: fillAll anchor form ts

end

mutual

def references : Template → List Reference
  | gap r => [r]
  | node _ parts _ => referencesAll parts

def referencesAll : List Template → List Reference
  | [] => []
  | t :: ts => references t ++ referencesAll ts

end

lemma part_induction {P : Template → Prop} (gap : ∀ r, P (.gap r))
    (node : ∀ own parts ordinary, (∀ t ∈ parts, P t) → P (.node own parts ordinary))
    (t : Template) : P t := by
  refine @Template.rec P (fun ts => ∀ t ∈ ts, P t) gap node ?_ ?_ t
  · simp
  · intro t ts ht hts
    exact List.forall_mem_cons.mpr ⟨ht, hts⟩

lemma fillAll_eq (anchor : String) (form : Form) (ts : List Template) :
    fillAll anchor form ts = ts.map (fill anchor form) := by
  induction ts with
  | nil => rfl
  | cons t ts ih => rw [fillAll, ih, List.map_cons]

lemma referencesAll_eq (ts : List Template) : referencesAll ts = ts.flatMap references := by
  induction ts with
  | nil => rfl
  | cons t ts ih => rw [referencesAll, ih, List.flatMap_cons]

lemma fill_of_no_references (anchor : String) (form other : Form) {t : Template}
    (h : t.references = []) : t.fill anchor form = t.fill anchor other := by
  induction t using part_induction with
  | gap r => cases h
  | node own parts ordinary ih =>
    rw [references, referencesAll_eq, List.flatMap_eq_nil_iff] at h
    have hparts : parts.map (fill anchor form) = parts.map (fill anchor other) :=
      List.map_congr_left fun t ht => ih t ht (h t ht)
    rw [fill, fill, fillAll_eq, fillAll_eq, hparts]

end Template

/-! ### Names below qualified names -/

section Names

variable (t : Node → Bool) {u : Node → Bool} (hu : ∀ n, n.tag ≠ qualifiedName → u n = false)

lemma nodesWhere_name (own : Node) (role : Option String) (token : String) :
    nodesWhere [t, u] (Reference.name own role token) = [] := by
  rw [nodesWhere_pair]
  rfl

lemma nodesWhere_qualified (own : Node) (parts : List Node) :
    nodesWhere [t, u] (Reference.qualified own parts) = parts.flatMap fun m =>
      (if t m && u (Reference.qualified own parts) then [m] else []) ++ nodesWhere [t, u] m := by
  rw [nodesWhere_pair]
  rfl

include hu

lemma nodesWhere_fill (anchor : String) (form : Form) (τ : Template) :
    nodesWhere [t, u] (τ.fill anchor form) =
      τ.references.flatMap fun r => nodesWhere [t, u] (r.tree anchor form) := by
  induction τ using Template.part_induction with
  | gap r => simp [Template.fill, Template.references]
  | node own parts ordinary ih =>
    have hown : u ((Template.node own parts ordinary).fill anchor form) = false :=
      hu _ (by simpa [Template.fill] using ordinary)
    rw [nodesWhere_pair, hown, Template.fill, Template.fillAll_eq, Template.references,
      Template.referencesAll_eq, List.flatMap_assoc, List.flatMap_map]
    refine List.flatMap_congr fun τ hτ => ?_
    simp [ih τ hτ]

end Names

section Forms

variable (anchor : String)

/-- The outer name of a long reference is the only one with an anchor two levels below it. -/
lemma longFlags_tree_long (r : Reference) :
    (longFlags anchor (r.tree anchor .long)).map Node.token = [r.flag] := by
  have hne : (qualifiedName == simpleName) = false := by decide
  have hne' : (simpleName == qualifiedName) = false := by decide
  simp [longFlags, Reference.tree, nodesWhere_qualified, nodesWhere_name, hne, hne']

lemma longFlags_tree_short (r : Reference) : longFlags anchor (r.tree anchor .short) = [] := by
  have hne : (simpleName == qualifiedName) = false := by decide
  simp [longFlags, Reference.tree, nodesWhere_qualified, nodesWhere_name, hne]

lemma shortFlags_tree_short (r : Reference) :
    (shortFlags anchor (r.tree anchor .short)).map Node.token = [r.flag] := by
  simp [shortFlags, Reference.tree, nodesWhere_qualified, nodesWhere_name]

lemma longFlags_fill (form : Form) (τ : Template) :
    longFlags anchor (τ.fill anchor form) =
      τ.references.flatMap fun r => longFlags anchor (r.tree anchor form) := by
  apply nodesWhere_fill
  intro n hn
  simp [tagged, hn]

lemma shortFlags_fill (form : Form) (τ : Template) :
    shortFlags anchor (τ.fill anchor form) =
      τ.references.flatMap fun r => shortFlags anchor (r.tree anchor form) := by
  apply nodesWhere_fill
  intro n hn
  simp [tagged, hn]

lemma longFlags_fill_long (τ : Template) :
    (longFlags anchor (τ.fill anchor .long)).map Node.token = τ.references.map Reference.flag := by
  rw [longFlags_fill, List.map_flatMap, funext (longFlags_tree_long anchor), ← List.map_eq_flatMap]

lemma longFlags_fill_short (τ : Template) : longFlags anchor (τ.fill anchor .short) = [] := by
  rw [longFlags_fill, List.flatMap_eq_nil_iff]
  intro r _
  exact longFlags_tree_short anchor r

lemma shortFlags_fill_short (τ : Template) :
    (shortFlags anchor (τ.fill anchor .short)).map Node.token =
      τ.references.map Reference.flag := by
  rw [shortFlags_fill, List.map_flatMap, funext (shortFlags_tree_short anchor),
    ← List.map_eq_flatMap]

lemma flags_fill_short (τ : Template) :
    flags anchor (τ.fill anchor .short) = τ.references.map Reference.flag := by
  rw [flags, longFlags_fill_short, if_pos List.isEmpty_nil, shortFlags_fill_short]

lemma flags_fill_long (τ : Template) :
    flags anchor (τ.fill anchor .long) = τ.references.map Reference.flag := by
  by_cases h : τ.references = []
  · rw [τ.fill_of_no_references anchor .long .short h, flags_fill_short]
  · have hfound : longFlags anchor (τ.fill anchor .long) ≠ [] := by
      intro hnil
      have hmap := longFlags_fill_long anchor τ
      rw [hnil, List.map_nil, eq_comm, List.map_eq_nil_iff] at hmap
      exact h hmap
    rw [flags, if_neg (by simpa using hfound), longFlags_fill_long]

lemma ofArgument_fill (form : Form) (τ : Template) :
    ofArgument anchor (τ.fill anchor form) = τ.references.map Reference.flag := by
  rw [flags_eq]
  cases form with
  | long => exact flags_fill_long anchor τ
  | short => exact flags_fill_short anchor τ

lemma resolve_mixed (τs : List Template) (form : ℕ → Form) :
    resolve anchor (τs.mapIdx fun i τ => τ.fill anchor (form i)) =
      τs.flatMap fun τ => τ.references.map Reference.flag := by
  induction τs generalizing form with
  | nil => rfl
  | cons τ τs ih =>
    have hrest := ih fun i => form (i + 1)
    rw [resolve] at hrest
    rw [resolve, List.mapIdx_cons, List.flatMap_cons, ofArgument_fill, hrest, List.flatMap_cons]

end Forms

/-- The flags of arguments are those of their references, argument by argument and in the order of
the document, each as often as it is referred to. It is the same whether the references are all
long, all short, or long in some arguments and short in the others. -/
theorem resolve_fill (anchor : String) (τs : List Template) :
    let flags := τs.flatMap fun τ => τ.references.map Reference.flag
    resolve anchor (τs.map (Template.fill anchor .long)) = flags ∧
      resolve anchor (τs.map (Template.fill anchor .short)) = flags ∧
      ∀ form : ℕ → Form, resolve anchor (τs.mapIdx fun i τ => τ.fill anchor (form i)) = flags := by
  intro flags
  have hform (form : Form) : resolve anchor (τs.map (Template.fill anchor form)) = flags := by
    rw [resolve, List.flatMap_map]
    exact List.flatMap_congr fun τ _ => ofArgument_fill anchor form τ
  exact ⟨hform .long, hform .short, resolve_mixed anchor τs⟩

end Flags

end SettingCatalog
