/-
Module: WebhookProcessor.Json.Value
Layer: Json
Purpose: JSON values with exact numbers.  An object is its list of members, as a text writes them;
  the canonical form sorts the members by key and keeps the last one of each key, and two values
  are the same JSON value when their canonical forms agree.
Trusted boundary: none
Main exports: Value, mapNumbers, All, canonical, Same, DistinctKeys, canonical_canonical,
  canonical_mapNumbers, all_canonical_iff
-/
import Mathlib.Data.Rat.Defs
import Mathlib.Data.String.Basic

namespace Json

/-- The syntactic categories of JSON. -/
inductive Kind where
  | value
  | items
  | members
deriving DecidableEq

/-- The syntax of JSON.  The three categories are one family, so that one recursion serves all. -/
inductive Tree : Kind → Type where
  | null : Tree .value
  | bool (value : Bool) : Tree .value
  | number (value : ℚ) : Tree .value
  | string (text : String) : Tree .value
  | array (items : Tree .items) : Tree .value
  | object (members : Tree .members) : Tree .value
  | noItem : Tree .items
  | item (head : Tree .value) (tail : Tree .items) : Tree .items
  | noMember : Tree .members
  | member (key : String) (value : Tree .value) (rest : Tree .members) : Tree .members
deriving DecidableEq

abbrev Value := Tree .value

abbrev Items := Tree .items

abbrev Members := Tree .members

namespace Tree

/-- Replace every number. -/
def mapNumbers (f : ℚ → ℚ) {kind : Kind} : Tree kind → Tree kind
  | .null => .null
  | .bool value => .bool value
  | .number value => .number (f value)
  | .string text => .string text
  | .array items => .array (items.mapNumbers f)
  | .object members => .object (members.mapNumbers f)
  | .noItem => .noItem
  | .item head tail => .item (head.mapNumbers f) (tail.mapNumbers f)
  | .noMember => .noMember
  | .member key value rest => .member key (value.mapNumbers f) (rest.mapNumbers f)

/-- Every number in the tree satisfies `p`. -/
def All (p : ℚ → Prop) {kind : Kind} : Tree kind → Prop
  | .null | .bool _ | .string _ | .noItem | .noMember => True
  | .number value => p value
  | .array items => items.All p
  | .object members => members.All p
  | .item head tail => head.All p ∧ tail.All p
  | .member _ value rest => value.All p ∧ rest.All p

/-- The keys of a list of members. -/
def keys {kind : Kind} : Tree kind → List String
  | .member key _ rest => key :: rest.keys
  | _ => []

/-- No object has two members with one key. -/
def DistinctKeys {kind : Kind} : Tree kind → Prop
  | .null | .bool _ | .number _ | .string _ | .noItem | .noMember => True
  | .array items => items.DistinctKeys
  | .object members => members.DistinctKeys
  | .item head tail => head.DistinctKeys ∧ tail.DistinctKeys
  | .member key value rest => key ∉ rest.keys ∧ value.DistinctKeys ∧ rest.DistinctKeys

/-- Every object lists its members in increasing order of their keys. -/
def Sorted {kind : Kind} : Tree kind → Prop
  | .null | .bool _ | .number _ | .string _ | .noItem | .noMember => True
  | .array items => items.Sorted
  | .object members => members.Sorted
  | .item head tail => head.Sorted ∧ tail.Sorted
  | .member key value rest => (∀ other ∈ rest.keys, key < other) ∧ value.Sorted ∧ rest.Sorted

/-- Put a member in its place among sorted members, unless its key is there already. -/
def insert {kind : Kind} (members : Tree kind) (key : String) (value : Value) : Tree kind :=
  match members with
  | .noMember => .member key value .noMember
  | .member next other rest =>
      if key < next then .member key value (.member next other rest)
      else if key = next then .member next other rest
      else .member next other (rest.insert key value)
  | other => other

/-- Members sorted by key, the last of equal keys kept. -/
def canonical {kind : Kind} : Tree kind → Tree kind
  | .null => .null
  | .bool value => .bool value
  | .number value => .number value
  | .string text => .string text
  | .array items => .array items.canonical
  | .object members => .object members.canonical
  | .noItem => .noItem
  | .item head tail => .item head.canonical tail.canonical
  | .noMember => .noMember
  | .member key value rest => rest.canonical.insert key value.canonical

/-- Both denote one JSON value. -/
def Same (first second : Value) : Prop :=
  first.canonical = second.canonical

instance (first second : Value) : Decidable (first.Same second) :=
  inferInstanceAs (Decidable (_ = _))

def decideAll (p : ℚ → Prop) [DecidablePred p] {kind : Kind} :
    (tree : Tree kind) → Decidable (tree.All p)
  | .null | .bool _ | .string _ | .noItem | .noMember => .isTrue trivial
  | .number value => inferInstanceAs (Decidable (p value))
  | .array items => items.decideAll p
  | .object members => members.decideAll p
  | .item head tail => @instDecidableAnd _ _ (head.decideAll p) (tail.decideAll p)
  | .member _ value rest => @instDecidableAnd _ _ (value.decideAll p) (rest.decideAll p)

instance (p : ℚ → Prop) [DecidablePred p] {kind : Kind} (tree : Tree kind) :
    Decidable (tree.All p) :=
  tree.decideAll p

def decideDistinctKeys {kind : Kind} : (tree : Tree kind) → Decidable tree.DistinctKeys
  | .null | .bool _ | .number _ | .string _ | .noItem | .noMember => .isTrue trivial
  | .array items => items.decideDistinctKeys
  | .object members => members.decideDistinctKeys
  | .item head tail => @instDecidableAnd _ _ head.decideDistinctKeys tail.decideDistinctKeys
  | .member _ value rest =>
      @instDecidableAnd _ _ inferInstance
        (@instDecidableAnd _ _ value.decideDistinctKeys rest.decideDistinctKeys)

instance {kind : Kind} (tree : Tree kind) : Decidable tree.DistinctKeys :=
  tree.decideDistinctKeys

/-! ### Replacing numbers -/

variable {kind : Kind} {p q : ℚ → Prop}

theorem mapNumbers_mapNumbers (f g : ℚ → ℚ) (tree : Tree kind) :
    (tree.mapNumbers f).mapNumbers g = tree.mapNumbers (g ∘ f) := by
  induction tree with
  | null | bool | number | string | noItem | noMember => rfl
  | array items inductionHypothesis | object members inductionHypothesis =>
      simp [mapNumbers, inductionHypothesis]
  | item _ _ headHypothesis tailHypothesis | member _ _ _ headHypothesis tailHypothesis =>
      simp [mapNumbers, headHypothesis, tailHypothesis]

theorem mapNumbers_eq_self_iff (f : ℚ → ℚ) (tree : Tree kind) :
    tree.mapNumbers f = tree ↔ tree.All (fun number => f number = number) := by
  induction tree with
  | null | bool | number | string | noItem | noMember => simp [mapNumbers, All]
  | array items inductionHypothesis | object members inductionHypothesis =>
      simp [mapNumbers, All, inductionHypothesis]
  | item _ _ headHypothesis tailHypothesis | member _ _ _ headHypothesis tailHypothesis =>
      simp [mapNumbers, All, headHypothesis, tailHypothesis]

theorem all_mapNumbers (f : ℚ → ℚ) (tree : Tree kind) :
    (tree.mapNumbers f).All p ↔ tree.All (fun number => p (f number)) := by
  induction tree with
  | null | bool | number | string | noItem | noMember => rfl
  | array items inductionHypothesis | object members inductionHypothesis =>
      exact inductionHypothesis
  | item _ _ headHypothesis tailHypothesis | member _ _ _ headHypothesis tailHypothesis =>
      exact and_congr headHypothesis tailHypothesis

theorem All.imp (implies : ∀ number, p number → q number) {tree : Tree kind}
    (holds : tree.All p) : tree.All q := by
  induction tree with
  | null | bool | string | noItem | noMember => trivial
  | number value => exact implies value holds
  | array items inductionHypothesis | object members inductionHypothesis =>
      exact inductionHypothesis holds
  | item _ _ headHypothesis tailHypothesis | member _ _ _ headHypothesis tailHypothesis =>
      exact ⟨headHypothesis holds.1, tailHypothesis holds.2⟩

theorem All.and {tree : Tree kind} (first : tree.All p) (second : tree.All q) :
    tree.All fun number => p number ∧ q number := by
  induction tree with
  | null | bool | string | noItem | noMember => trivial
  | number value => exact ⟨first, second⟩
  | array items inductionHypothesis | object members inductionHypothesis =>
      exact inductionHypothesis first second
  | item _ _ headHypothesis tailHypothesis | member _ _ _ headHypothesis tailHypothesis =>
      exact ⟨headHypothesis first.1 second.1, tailHypothesis first.2 second.2⟩

/-! ### Sorting members -/

theorem mem_keys_insert {key other : String} {value : Value} :
    ∀ members : Members,
      other ∈ (members.insert key value).keys ↔ other = key ∨ other ∈ members.keys
  | .noMember => by simp [insert, keys]
  | .member next _ rest => by
      unfold insert
      split
      · simp [keys]
      · split
        · next equal => simp [keys, equal]
        · simp only [keys, List.mem_cons, mem_keys_insert rest]
          tauto

theorem mem_keys_canonical {key : String} :
    ∀ members : Members, key ∈ members.canonical.keys ↔ key ∈ members.keys
  | .noMember => Iff.rfl
  | .member next value rest => by
      rw [canonical, mem_keys_insert, mem_keys_canonical rest, keys, List.mem_cons]

theorem Sorted.insert {key : String} {value : Value} (sortedValue : value.Sorted) :
    ∀ {members : Members}, members.Sorted → (members.insert key value).Sorted
  | .noMember, _ => ⟨fun _ absent => absurd absent List.not_mem_nil, sortedValue, trivial⟩
  | .member next other rest, ⟨least, sortedOther, sortedRest⟩ => by
      unfold Tree.insert
      split
      · next smaller =>
          refine ⟨?_, sortedValue, least, sortedOther, sortedRest⟩
          intro later member
          rcases List.mem_cons.mp member with rfl | member
          · exact smaller
          · exact lt_trans smaller (least later member)
      · next notSmaller =>
          split
          · exact ⟨least, sortedOther, sortedRest⟩
          · next different =>
              refine ⟨?_, sortedOther, Sorted.insert sortedValue sortedRest⟩
              intro later member
              rcases (mem_keys_insert rest).mp member with rfl | member
              · exact lt_of_le_of_ne (not_lt.mp notSmaller) (Ne.symm different)
              · exact least later member

theorem sorted_canonical (tree : Tree kind) : tree.canonical.Sorted := by
  induction tree with
  | null | bool | number | string | noItem | noMember => trivial
  | array items inductionHypothesis | object members inductionHypothesis =>
      exact inductionHypothesis
  | item head tail headHypothesis tailHypothesis => exact ⟨headHypothesis, tailHypothesis⟩
  | member key value rest valueHypothesis restHypothesis =>
      exact Sorted.insert valueHypothesis restHypothesis

theorem insert_of_least {key : String} {value : Value} :
    ∀ {members : Members}, (∀ other ∈ members.keys, key < other) →
      members.insert key value = .member key value members
  | .noMember, _ => rfl
  | .member next _ _, least => if_pos (least next List.mem_cons_self)

theorem canonical_of_sorted {tree : Tree kind} (sorted : tree.Sorted) : tree.canonical = tree := by
  induction tree with
  | null | bool | number | string | noItem | noMember => rfl
  | array items inductionHypothesis | object members inductionHypothesis =>
      rw [canonical, inductionHypothesis sorted]
  | item head tail headHypothesis tailHypothesis =>
      rw [canonical, headHypothesis sorted.1, tailHypothesis sorted.2]
  | member key value rest valueHypothesis restHypothesis =>
      rw [canonical, valueHypothesis sorted.2.1, restHypothesis sorted.2.2,
        insert_of_least sorted.1]

@[simp] theorem canonical_canonical (tree : Tree kind) :
    tree.canonical.canonical = tree.canonical :=
  canonical_of_sorted (sorted_canonical tree)

theorem insert_mapNumbers (f : ℚ → ℚ) {key : String} {value : Value} :
    ∀ members : Members, (members.mapNumbers f).insert key (value.mapNumbers f) =
      (members.insert key value).mapNumbers f
  | .noMember => rfl
  | .member next other rest => by
      simp only [mapNumbers, insert, insert_mapNumbers f rest]
      split
      · rfl
      · split
        · rfl
        · rfl

theorem canonical_mapNumbers (f : ℚ → ℚ) (tree : Tree kind) :
    (tree.mapNumbers f).canonical = tree.canonical.mapNumbers f := by
  induction tree with
  | null | bool | number | string | noItem | noMember => rfl
  | array items inductionHypothesis | object members inductionHypothesis =>
      simp [mapNumbers, canonical, inductionHypothesis]
  | item head tail headHypothesis tailHypothesis =>
      simp [mapNumbers, canonical, headHypothesis, tailHypothesis]
  | member key value rest valueHypothesis restHypothesis =>
      rw [mapNumbers, canonical, canonical, valueHypothesis, restHypothesis, insert_mapNumbers]

/-! ### The numbers of the canonical form -/

theorem All.insert {key : String} {value : Value} (holds : value.All p) :
    ∀ {members : Members}, members.All p → (members.insert key value).All p
  | .noMember, _ => ⟨holds, trivial⟩
  | .member next other rest, ⟨holdsOther, holdsRest⟩ => by
      unfold Tree.insert
      split
      · exact ⟨holds, holdsOther, holdsRest⟩
      · split
        · exact ⟨holdsOther, holdsRest⟩
        · exact ⟨holdsOther, All.insert holds holdsRest⟩

theorem All.canonical {tree : Tree kind} (holds : tree.All p) : tree.canonical.All p := by
  induction tree with
  | null | bool | number | string | noItem | noMember => exact holds
  | array items inductionHypothesis | object members inductionHypothesis =>
      exact inductionHypothesis holds
  | item head tail headHypothesis tailHypothesis =>
      exact ⟨headHypothesis holds.1, tailHypothesis holds.2⟩
  | member key value rest valueHypothesis restHypothesis =>
      exact All.insert (valueHypothesis holds.1) (restHypothesis holds.2)

/-- A new key drops no member. -/
theorem all_of_insert {key : String} {value : Value} :
    ∀ {members : Members}, key ∉ members.keys → (members.insert key value).All p →
      value.All p ∧ members.All p
  | .noMember, _, holds => holds
  | .member next other rest, fresh, holds => by
      have different : key ≠ next := fun equal => fresh (equal ▸ List.mem_cons_self)
      rw [Tree.insert, if_neg different] at holds
      split at holds
      · exact holds
      · have inRest : key ∉ rest.keys := fun member => fresh (List.mem_cons_of_mem _ member)
        obtain ⟨holdsValue, holdsRest⟩ := all_of_insert inRest holds.2
        exact ⟨holdsValue, holds.1, holdsRest⟩

theorem all_canonical_iff {tree : Tree kind} (distinct : tree.DistinctKeys) :
    tree.canonical.All p ↔ tree.All p := by
  refine ⟨?_, All.canonical⟩
  intro holds
  induction tree with
  | null | bool | number | string | noItem | noMember => exact holds
  | array items inductionHypothesis | object members inductionHypothesis =>
      exact inductionHypothesis distinct holds
  | item head tail headHypothesis tailHypothesis =>
      exact ⟨headHypothesis distinct.1 holds.1, tailHypothesis distinct.2 holds.2⟩
  | member key value rest valueHypothesis restHypothesis =>
      have fresh : key ∉ rest.canonical.keys := fun member =>
        distinct.1 ((mem_keys_canonical rest).mp member)
      obtain ⟨holdsValue, holdsRest⟩ := all_of_insert fresh holds
      exact ⟨valueHypothesis distinct.2.1 holdsValue, restHypothesis distinct.2.2 holdsRest⟩

end Tree

end Json
