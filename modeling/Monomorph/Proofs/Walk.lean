import Mathlib.Data.List.Basic
import Mathlib.Data.List.Induction
import Mathlib.Data.Nat.Find
import Mathlib.Order.Bounds.Basic
import Monomorph.Analysis

/-!
# Walks Through a Graph

What it means for a program to reach an instantiation, said without any search.

A graph has two sorts of edges, and closing it treats them alike. A `Hop` is
either of them, so that everything below is said once. A hop takes an
instantiation of its source to the instantiation of its target that its
arguments become under the binding; `Leads` is that relation, and
`mem_successors_iff` says that it is what expanding an instantiation computes.

A walk starts at a seed and takes one hop after the other, never through an
instantiation that is nested too deeply. Its length is part of the relation,
because the limit on hops is a limit on the length of walks. `Meets` is the
same with no condition on where it ends: it holds of everything that is ever
brought up as a candidate, whether it is then taken or given up. The two differ
only by that condition (`walk_iff`).

## Main definitions

* `Hop`: An edge of either sort, with its source, target and arguments.
* `Graph.hops`: All of them.
* `Graph.along`: Where a hop takes an instantiation.
* `Graph.Leads`: Some hop takes one instantiation to another.
* `Graph.IsSeed`: A site writes the instantiation closed.
* `Graph.Walk`: A walk of a given length within a limit on nesting.
* `Graph.Meets`: A walk brings an instantiation up after a number of hops.
* `Graph.FirstMet`: The fewest hops after which that happens.

## Theorems

* `Instantiation.ofArgs?_eq_some_iff`: What arguments make an instantiation.
* `placesBy_concat`, `length_placesBy`: One more key adds its place to its row.
* `filterMap_placesBy`, `getD_placesBy`: A row lists the items whose key it is for, in
  order.
* `Graph.edgesFrom_eq_filter`, `Graph.basesOf_eq_filter`: So the edges that leave a
  declaration are found.
* `Graph.along_eq_some_iff`: A hop leads to its target under the binding.
* `Graph.successors_eq_filterMap`: Expanding follows every hop that leaves.
* `Graph.mem_successors_iff`: What expanding gives is what is led to.
* `Graph.mem_seeds_iff`: The seeds are what sites write closed.
* `Graph.walk_iff`: A walk meets its end and the end is within the limit.
* `Graph.exists_firstMet_le`: What is met is first met no later.
* `Graph.firstMet_zero_iff`, `Graph.firstMet_succ`: Where a first meeting comes
  from.
-/

namespace Monomorph

/-- A way out of a declaration: a use of another one, or what it inherits
    from. -/
inductive Hop where
  | use (edge : Edge)
  | inherit (edge : HierarchyEdge)
deriving DecidableEq

namespace Hop

/-- The declaration that the hop leaves. -/
def source : Hop → DeclId
  | use edge => edge.caller
  | inherit edge => edge.derived

/-- The declaration that the hop leads to. -/
def target : Hop → DeclId
  | use edge => edge.callee
  | inherit edge => edge.base

/-- The arguments for the target, in the words of the source. -/
def args : Hop → List Expr
  | use edge => edge.args
  | inherit edge => edge.args

end Hop

namespace Instantiation

theorem ofArgs?_eq_some_iff (decl : DeclId) (args : List Expr) (i : Instantiation) :
    ofArgs? decl args = some i ↔ decl = i.decl ∧ args = i.args := by
  unfold ofArgs?
  by_cases h : Expr.allClosed args = true
  · rw [dif_pos h, Option.some.injEq]
    constructor
    · rintro rfl
      exact ⟨rfl, rfl⟩
    · rintro ⟨rfl, rfl⟩
      rfl
  · rw [dif_neg h]
    constructor
    · intro hnone
      exact absurd hnone (by simp only [reduceCtorEq, not_false_eq_true])
    · rintro ⟨_, rfl⟩
      exact absurd i.closed h

end Instantiation

theorem placesBy_concat (size : Nat) (keys : List DeclId) (key : DeclId) :
    placesBy size (keys ++ [key]) = (placesBy size keys).modify key (· ++ [keys.length]) := by
  rw [placesBy, List.zipIdx_append, List.foldl_append, Nat.zero_add]
  rfl

@[simp]
theorem length_placesBy (size : Nat) (keys : List DeclId) : (placesBy size keys).length = size := by
  induction keys using List.reverseRecOn with
  | nil => rw [placesBy, List.zipIdx_nil, List.foldl_nil, List.length_replicate]
  | append_singleton keys key ih => rw [placesBy_concat, List.length_modify, ih]

/-- A row lists the items whose key it is for, each once and in order. -/
theorem filterMap_placesBy {α : Type} (size : Nat) (key : α → DeclId) (items : List α)
    (id : DeclId) (hid : id < size) :
    ∃ row, (placesBy size (items.map key))[id]? = some row ∧
      (∀ place ∈ row, place < items.length) ∧
      row.filterMap (items[·]?) = items.filter (fun item => key item == id) := by
  -- On the items from the end: the last one adds its place to its row and to no other.
  induction items using List.reverseRecOn with
  | nil =>
      refine ⟨[], ?_, fun place hplace => absurd hplace List.not_mem_nil, rfl⟩
      rw [List.map_nil, placesBy, List.zipIdx_nil, List.foldl_nil, List.getElem?_replicate,
        if_pos hid]
  | append_singleton items last ih =>
      rcases ih with ⟨row, hrow, hbelow, hlist⟩
      -- Places that were there before are not those of the last item.
      have hold : row.filterMap ((items ++ [last])[·]?) = row.filterMap (items[·]?) :=
        List.filterMap_congr fun place hplace => List.getElem?_append_left (hbelow place hplace)
      rw [List.map_append, List.map_singleton, placesBy_concat, List.getElem?_modify, hrow,
        List.filter_append, List.length_append]
      by_cases hlast : key last = id
      · -- The new place comes last in the row, as the item does in the list.
        refine ⟨row ++ [items.length], ?_, fun place hplace => ?_, ?_⟩
        · simp only [Option.map_eq_map, Option.map_some, hlast, if_true, List.length_map]
        · rcases List.mem_append.mp hplace with hplace | hplace
          · exact Nat.lt_succ_of_lt (hbelow place hplace)
          · rw [List.mem_singleton.mp hplace]
            exact Nat.lt_succ_self _
        · rw [List.filterMap_append, hold, hlist]
          simp only [List.filterMap_cons, List.filterMap_nil, List.getElem?_concat_length,
            List.filter_cons, List.filter_nil, hlast, beq_self_eq_true, if_true]
      · refine ⟨row, ?_, fun place hplace => Nat.lt_succ_of_lt (hbelow place hplace), ?_⟩
        · simp only [Option.map_eq_map, Option.map_some, hlast, if_false]
        · rw [hold, hlist]
          simp only [List.filter_cons, List.filter_nil, beq_eq_false_iff_ne.mpr hlast,
            Bool.false_eq_true, if_false, List.append_nil]

/-- What is listed for a key is listed in a row if there is one, and else there is
    nothing to list. -/
theorem getD_placesBy {α : Type} (size : Nat) (key : α → DeclId) (items : List α)
    (hkeys : ∀ item ∈ items, key item < size) (id : DeclId) :
    (((placesBy size (items.map key))[id]?).getD []).filterMap (items[·]?) =
      items.filter (fun item => key item == id) := by
  by_cases hid : id < size
  · rcases filterMap_placesBy size key items id hid with ⟨row, hrow, _, hlist⟩
    rw [hrow, Option.getD_some, hlist]
  · -- Beyond the last row there is no key either.
    have hlength : (placesBy size (items.map key)).length = size := length_placesBy size _
    rw [List.getElem?_eq_none (by rw [hlength]; exact Nat.le_of_not_lt hid), Option.getD_none,
      List.filterMap_nil, eq_comm, List.filter_eq_nil_iff]
    intro item hitem heq
    exact hid (beq_iff_eq.mp heq ▸ hkeys item hitem)

namespace Graph

/-- The edges that leave a declaration are found by their places. -/
theorem edgesFrom_eq_filter (g : Graph) (id : DeclId) :
    g.edgesFrom id = g.edges.filter fun edge => edge.caller == id :=
  getD_placesBy g.table.size Edge.caller g.edges g.caller_lt id

theorem basesOf_eq_filter (g : Graph) (id : DeclId) :
    g.basesOf id = g.hierarchy.filter fun edge => edge.derived == id :=
  getD_placesBy g.table.size HierarchyEdge.derived g.hierarchy g.derived_lt id

/-- Every way out of any declaration: the uses, then the inheritance. -/
def hops (g : Graph) : List Hop :=
  g.edges.map .use ++ g.hierarchy.map .inherit

/-- Where a hop takes an instantiation of its source, unless an argument stays
    open. -/
def along (g : Graph) (i : Instantiation) (hop : Hop) : Option Instantiation :=
  ((g.binding i).closeAll? hop.args).bind (Instantiation.ofArgs? hop.target)

/-- A hop leads exactly where its target and its arguments under the binding
    say. The two checks for openness are one, closedness being part of the
    result. -/
theorem along_eq_some_iff (g : Graph) (i j : Instantiation) (hop : Hop) :
    g.along i hop = some j ↔
      hop.target = j.decl ∧ (g.binding i).applyAll hop.args = j.args := by
  unfold along Subst.closeAll?
  by_cases h : Expr.allClosed ((g.binding i).applyAll hop.args) = true
  · rw [if_pos h, Option.bind_some, Instantiation.ofArgs?_eq_some_iff]
  · -- What an instantiation consists of is closed, so an open argument leads nowhere.
    rw [if_neg h, Option.bind_none]
    constructor
    · intro hnone
      exact absurd hnone (by simp only [reduceCtorEq, not_false_eq_true])
    · rintro ⟨_, hargs⟩
      rw [hargs] at h
      exact absurd j.closed h

/-- Some hop takes the one instantiation to the other. -/
def Leads (g : Graph) (i j : Instantiation) : Prop :=
  ∃ hop ∈ g.hops, hop.source = i.decl ∧ hop.target = j.decl ∧
    (g.binding i).applyAll hop.args = j.args

/-- Expanding an instantiation follows the hops that leave its declaration, one
    after the other. -/
theorem successors_eq_filterMap (g : Graph) (i : Instantiation) :
    g.successors i = (g.hops.filter (fun hop => hop.source == i.decl)).filterMap (g.along i) := by
  unfold successors targets hops
  rw [edgesFrom_eq_filter, basesOf_eq_filter, List.filter_append, List.filter_map,
    List.filter_map, List.filterMap_append, List.filterMap_append, List.filterMap_map,
    List.filterMap_map, List.filterMap_map, List.filterMap_map]
  rfl

/-- What expanding an instantiation gives is what it leads to. -/
theorem mem_successors_iff (g : Graph) (i j : Instantiation) :
    j ∈ g.successors i ↔ g.Leads i j := by
  rw [successors_eq_filterMap]
  simp only [List.mem_filterMap, List.mem_filter, beq_iff_eq, along_eq_some_iff, Leads,
    and_assoc]

/-- Some site writes the instantiation closed. -/
def IsSeed (g : Graph) (i : Instantiation) : Prop :=
  ∃ edge ∈ g.edges, edge.kind ≠ .member ∧ edge.callee = i.decl ∧ edge.args = i.args

theorem mem_seeds_iff (g : Graph) (i : Instantiation) : i ∈ g.seeds ↔ g.IsSeed i := by
  unfold seeds siteEdges IsSeed
  simp only [List.mem_filterMap, List.mem_filter, bne_iff_ne,
    Instantiation.ofArgs?_eq_some_iff, and_assoc]

/-- A walk of a given length from a seed, every instantiation on which is nested
    at most `limit` deep. -/
inductive Walk (g : Graph) (limit : Nat) : Nat → Instantiation → Prop
  | seed (i : Instantiation) (hseed : g.IsSeed i) (hnest : i.nesting ≤ limit) : Walk g limit 0 i
  | hop (n : Nat) (i j : Instantiation) (hwalk : Walk g limit n i) (hleads : g.Leads i j)
      (hnest : j.nesting ≤ limit) : Walk g limit (n + 1) j

/-- The instantiation is a seed, or a walk of one hop less leads to it. Nothing
    is said about its own nesting. -/
def Meets (g : Graph) (limit : Nat) : Nat → Instantiation → Prop
  | 0, j => g.IsSeed j
  | n + 1, j => ∃ i, g.Walk limit n i ∧ g.Leads i j

/-- A walk is a meeting with something within the limit. -/
theorem walk_iff (g : Graph) (limit n : Nat) (i : Instantiation) :
    g.Walk limit n i ↔ g.Meets limit n i ∧ i.nesting ≤ limit := by
  constructor
  · intro h
    cases h with
    | seed _ hseed hnest => exact ⟨hseed, hnest⟩
    | hop n j _ hwalk hleads hnest => exact ⟨⟨j, hwalk, hleads⟩, hnest⟩
  · rintro ⟨hmeets, hnest⟩
    cases n with
    | zero => exact Walk.seed i hmeets hnest
    | succ n =>
        rcases hmeets with ⟨j, hwalk, hleads⟩
        exact Walk.hop n j i hwalk hleads hnest

/-- The number of hops is the fewest after which the instantiation is met. -/
def FirstMet (g : Graph) (limit n : Nat) (j : Instantiation) : Prop :=
  IsLeast {m | g.Meets limit m j} n

theorem exists_firstMet_le (g : Graph) (limit n : Nat) (j : Instantiation)
    (h : g.Meets limit n j) : ∃ m ≤ n, g.FirstMet limit m j := by
  classical
  have hex : ∃ m, g.Meets limit m j := ⟨n, h⟩
  exact ⟨Nat.find hex, Nat.find_min' hex h, Nat.find_spec hex,
    fun m hm => Nat.find_min' hex hm⟩

theorem firstMet_zero_iff (g : Graph) (limit : Nat) (j : Instantiation) :
    g.FirstMet limit 0 j ↔ g.IsSeed j :=
  ⟨fun h => h.1, fun h => ⟨h, fun m _ => Nat.zero_le m⟩⟩

/-- What is first met after a hop is led to by something that was itself first
    met just before. Had that been met earlier, so would its target have
    been. -/
theorem firstMet_succ (g : Graph) (limit n : Nat) (j : Instantiation)
    (h : g.FirstMet limit (n + 1) j) :
    ∃ i, g.FirstMet limit n i ∧ i.nesting ≤ limit ∧ g.Leads i j := by
  rcases h.1 with ⟨i, hwalk, hleads⟩
  rcases (walk_iff g limit n i).mp hwalk with ⟨hmeets, hnest⟩
  refine ⟨i, ⟨hmeets, fun m hm => ?_⟩, hnest, hleads⟩
  -- An earlier meeting with the source would lead on to an earlier one with the target.
  have hearlier : g.Meets limit (m + 1) j := ⟨i, (walk_iff g limit m i).mpr ⟨hm, hnest⟩, hleads⟩
  have hle : n + 1 ≤ m + 1 := h.2 hearlier
  omega

end Graph

end Monomorph
