import SettingCatalog.Query.Basic

/-!
What a query selects. A place in a tree is a chain of entries, from a node up to the root; the
empty chain is the document, whose only child is the root. A step leads from each chain to others,
to those of descendants by a search with a stack; between steps the chains are put in document order
and repetitions are dropped.
-/

namespace SettingCatalog.Query

structure Entry where
  index : Nat
  node : Node

/-- A place in a tree: the entry of its node, then those of the nodes above it up to the root. -/
abbrev Chain := List Entry

namespace Chain

/-- The indices that lead from the document down to the place. Their lexicographic order is the
order of the document. -/
def address (c : Chain) : List Nat := (c.map Entry.index).reverse

def node? (c : Chain) : Option Node := c.head?.map Entry.node

/-- The number of nodes that stand before the place in the document. -/
def ordinal : Chain → Nat
  | [] => 0
  | [_] => 0
  | e :: p :: rest => ordinal (p :: rest) + 1 + Node.sizeAll (p.node.children.take e.index)

def extendAll (c : Chain) (index : Nat) : List Node → List Chain
  | [] => []
  | n :: ns => (⟨index, n⟩ :: c) :: extendAll c (index + 1) ns

def children (root : Node) : Chain → List Chain
  | [] => extendAll [] 0 [root]
  | e :: rest => extendAll (e :: rest) 0 e.node.children

def parents : Chain → List Chain
  | _ :: p :: rest => [p :: rest]
  | _ => []

def itself : Chain → List Chain
  | [] => []
  | c => [c]

def acceptedBy (s : Step) (c : Chain) : Bool := c.node?.any s.accepts

end Chain

/-- A search for the places below a place: the stack holds those that are still to be visited, the
next one first. -/
structure Search where
  stack : List Chain
  found : Array Chain

namespace Search

def start (root : Node) (c : Chain) : Search := ⟨c.children root, #[]⟩

/-- One turn of the search. The next place leaves the stack; its children are put on it from the
last one to the first, and the place is found if the step accepts it. -/
def turn (s : Step) : Search → Option Search
  | ⟨[], _⟩ => none
  | ⟨[] :: stack, found⟩ => some ⟨stack, found⟩
  | ⟨(e :: c) :: stack, found⟩ =>
    let below := Chain.extendAll (e :: c) 0 e.node.children
    some ⟨below.foldr List.cons stack, if s.accepts e.node then found.push (e :: c) else found⟩

/-- The number of visits that a stack asks for: one for each node of the subtrees on it. -/
def visits : List Chain → Nat
  | [] => 0
  | [] :: stack => 1 + visits stack
  | (e :: _) :: stack => e.node.size + visits stack

def remaining (d : Search) : Nat := visits d.stack

theorem visits_extendAll (c : Chain) (index : Nat) (ns : List Node) (stack : List Chain) :
    visits (Chain.extendAll c index ns ++ stack) = Node.sizeAll ns + visits stack := by
  induction ns generalizing index with
  | nil => simp [Chain.extendAll, Node.sizeAll]
  | cons n ns ih =>
    rw [Chain.extendAll, List.cons_append, visits, ih, Node.sizeAll, Nat.add_assoc]

theorem turn_cases {s : Step} {d d' : Search} (h : d.turn s = some d') :
    (∃ stack found, d = ⟨[] :: stack, found⟩ ∧ d' = ⟨stack, found⟩) ∨
    ∃ e c stack found, d = ⟨(e :: c) :: stack, found⟩ ∧
      d' = ⟨Chain.extendAll (e :: c) 0 e.node.children ++ stack,
        if s.accepts e.node then found.push (e :: c) else found⟩ := by
  obtain ⟨_ | ⟨_ | ⟨e, c⟩, stack⟩, found⟩ := d
  · cases h
  · cases h
    exact .inl ⟨stack, found, rfl, rfl⟩
  · cases h
    exact .inr ⟨e, c, stack, found, rfl, by rw [List.foldr_cons_eq_append']⟩

theorem remaining_turn {s : Step} {d d' : Search} (h : d.turn s = some d') :
    d.remaining = d'.remaining + 1 := by
  obtain ⟨stack, found, rfl, rfl⟩ | ⟨e, c, stack, found, rfl, rfl⟩ := turn_cases h
  · rw [remaining, remaining, visits, Nat.add_comm]
  · rw [remaining, remaining, visits, visits_extendAll, Node.size_eq]
    omega

def run (s : Step) (d : Search) : Array Chain :=
  match _h : d.turn s with
  | none => d.found
  | some e => run s e
termination_by d.remaining
decreasing_by
  have := remaining_turn _h
  omega

end Search

def Step.expand (s : Step) (root : Node) (c : Chain) : List Chain :=
  match s.axis with
  | .child => (c.children root).filter (·.acceptedBy s)
  | .descendant => ((Search.start root c).run s).toList
  | .parent => c.parents.filter (·.acceptedBy s)
  | .current => c.itself.filter (·.acceptedBy s)

def dropRepeated {α : Type} : List (List Nat × α) → List α
  | [] => []
  | [(_, a)] => [a]
  | (k, a) :: (l, b) :: rest =>
    if k = l then dropRepeated ((k, a) :: rest) else a :: dropRepeated ((l, b) :: rest)

def inDocumentOrder (chains : List Chain) : List Chain :=
  dropRepeated
    ((chains.map fun c => (c.address, c)).mergeSort fun a b => !b.1.lex a.1)

def follow (root : Node) : List Step → List Chain → List Chain
  | [], places => places
  | s :: steps, places => follow root steps (inDocumentOrder (places.flatMap (s.expand root)))

def places (q : Query) (root : Node) : List Chain :=
  (follow root q.steps [[]]).filter fun c => !c.isEmpty

def select (q : Query) (root : Node) : List Node := (q.places root).filterMap Chain.node?

def first? (q : Query) (root : Node) : Option Node := (q.select root).head?

end SettingCatalog.Query
