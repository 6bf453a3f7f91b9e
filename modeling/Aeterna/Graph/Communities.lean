import Aeterna.Lib.Walks
import Aeterna.Lib.Modularity
import Mathlib.Algebra.Order.BigOperators.Group.List
import Mathlib.Algebra.Order.Field.Basic
import Mathlib.Algebra.Order.Ring.Rat
import Mathlib.Combinatorics.SimpleGraph.Connectivity.Connected
import Mathlib.Data.Fintype.Pi
import Mathlib.Data.List.FinRange
import Mathlib.Data.List.Sort
import Mathlib.Tactic.FieldSimp
import Mathlib.Tactic.Linarith

namespace Aeterna.Graph
open Lib (repeatWhile)
open List Function

structure Community where
  memberNodeIds : List String
  density : ℚ
  level : Nat
  modularity : ℚ
  parentCommunityId : Option String

abbrev AdjWeights (n : Nat) := Fin n → List (Fin n × ℚ)

def nodeToIdx (nodeIds : List String) (id : String) : Option (Fin nodeIds.length) :=
  (finRange nodeIds.length).foldl (fun found i => if nodeIds.get i = id then some i else found) none

def AdjWeights.push {n : Nat} (adj : AdjWeights n) (i j : Fin n) : AdjWeights n :=
  update adj i (adj i ++ [(j, 1)])

def AdjWeights.addEdge (nodeIds : List String) (adj : AdjWeights nodeIds.length) (e : String × String) :
    AdjWeights nodeIds.length :=
  match nodeToIdx nodeIds e.1, nodeToIdx nodeIds e.2 with
  | some si, some ti => (adj.push si ti).push ti si
  | _, _ => adj

def adjWeights (nodeIds : List String) (edges : List (String × String)) : AdjWeights nodeIds.length :=
  edges.foldl (AdjWeights.addEdge nodeIds) (fun _ => [])

section
variable {n : Nat} (adj : AdjWeights n) (twoM : ℚ)

def degree (i : Fin n) : ℚ := ((adj i).map Prod.snd).sum

def commWeights (community : Fin n → Fin n) (node : Fin n) : List (Fin n × ℚ) :=
  ((adj node).map (fun e => community e.1)).dedup.map
    (fun cc => (cc, (((adj node).filter (fun e => community e.1 = cc)).map Prod.snd).sum))

def sigmaTot (community : Fin n → Fin n) (cc : Fin n) : ℚ := ∑ i, if community i = cc then degree adj i else 0

/-- `comm_weights.get(..).copied().unwrap_or(0.0)`. -/
def weightIn (weights : List (Fin n × ℚ)) (cc : Fin n) : ℚ :=
  ((weights.find? (fun w => w.1 = cc)).map Prod.snd).getD 0

def candidates (community : Fin n → Fin n) (node : Fin n) : List (Fin n × ℚ) :=
  let currentComm := community node
  let weights := commWeights adj community node
  let ki := degree adj node
  let sigmaCurrent := sigmaTot adj community currentComm - ki
  let removeCost := weightIn weights currentComm / twoM - sigmaCurrent * ki / (twoM * twoM)
  ((weights.filter (fun w => w.1 ≠ currentComm)).map (fun w =>
    (w.1, w.2 / twoM - sigmaTot adj community w.1 * ki / (twoM * twoM) - removeCost))).insertionSort
      (fun a b => b.2 < a.2 ∨ a.2 = b.2 ∧ a.1 ≤ b.1)

def bestComm (community : Fin n → Fin n) (node : Fin n) : Fin n :=
  match (candidates adj twoM community node).head? with
  | some (cc, gain) => if 0 < gain then cc else community node
  | none => community node

def localPass (community : Fin n → Fin n) : (Fin n → Fin n) × Bool :=
  (finRange n).foldl (fun (s : (Fin n → Fin n) × Bool) node =>
    if bestComm adj twoM s.1 node ≠ s.1 node then (update s.1 node (bestComm adj twoM s.1 node), true)
      else s) (community, false)

/-- A pass, after which `improved` tells whether this pass or one before it has moved a node. -/
def movingPass (s : (Fin n → Fin n) × Bool) : ((Fin n → Fin n) × Bool) × Bool :=
  let pass := localPass adj twoM s.1
  ((pass.1, s.2 || pass.2), pass.2)

def localMoving (fuel : Nat) (s : (Fin n → Fin n) × Bool) : Option ((Fin n → Fin n) × Bool) :=
  repeatWhile (movingPass adj twoM) fuel s

def movingRounds (fuel : Nat) : Nat → (Fin n → Fin n) → Option (Fin n → Fin n)
  | 0, community => some community
  | rounds + 1, community =>
    (localMoving adj twoM fuel (community, false)).bind (fun s => if s.2 then movingRounds fuel rounds s.1
      else some s.1)

def commList (community : Fin n → Fin n) : List (Fin n) := (finRange n).filter (fun cc => ∃ i, community i = cc)

def crossWeight (community : Fin n → Fin n) (ca cb : Fin n) : ℚ :=
  ∑ a, if community a = ca then (((adj a).filter (fun e => community e.1 = cb)).map Prod.snd).sum else 0

def mergeable (community : Fin n → Fin n) (ca cb : Fin n) : Bool :=
  let sa := sigmaTot adj community ca
  let sb := sigmaTot adj community cb
  0 < sa ∧ 0 < sb ∧ 0 ≤ crossWeight adj community ca cb / twoM - sa * sb / (twoM * twoM)

def mergeStep (s : (Fin n → Fin n) × List (Fin n)) : ((Fin n → Fin n) × List (Fin n)) × Bool :=
  let pairs := (finRange s.2.length).flatMap
      (fun i => ((finRange s.2.length).filter (fun j => i < j)).map (fun j => (i, j)))
  match pairs.find? (fun p => mergeable adj twoM s.1 (s.2.get p.1) (s.2.get p.2)) with
  | some (i, j) => ((fun x => if s.1 x = s.2.get j then s.2.get i else s.1 x, s.2.eraseIdx j), true)
  | none => (s, false)

def finalCommunity (fuel : Nat) : Option (Fin n → Fin n) :=
  (movingRounds adj twoM fuel 10 id).bind (fun community =>
    if 1 < (commList community).length then
      (repeatWhile (mergeStep adj twoM) fuel (community, commList community)).map Prod.fst
    else some community)

end

def computeCommunityModularity (nodeIds memberSet : List String) (adj : AdjWeights nodeIds.length) (twoM : ℚ) : ℚ :=
  (memberSet.filterMap (nodeToIdx nodeIds) |>.map (fun i =>
    ((adj i).filter (fun e => (nodeIds.find? (fun name => nodeToIdx nodeIds name = some e.1)).any
      (· ∈ memberSet))).map (fun e =>
      e.2 - degree adj i * degree adj e.1 / twoM) |>.sum)).sum / twoM

def membersOf (nodeIds : List String) (community : Fin nodeIds.length → Fin nodeIds.length) (c : Fin nodeIds.length) :
    List String :=
  ((finRange nodeIds.length).filter (fun i => community i = c)).map nodeIds.get

def foundCommunity (nodeIds : List String) (edges : List (String × String)) (adj : AdjWeights nodeIds.length)
    (twoM : ℚ) (members : List String) :
    Community :=
  let internalEdges := edges.countP (fun e => e.1 ∈ members ∧ e.2 ∈ members ∧ e.1 ∈ nodeIds ∧ e.2 ∈ nodeIds)
  let nm := members.length
  let maxEdges := if 1 < nm then nm * (nm - 1) / 2 else 1
  { memberNodeIds := members
    density := (internalEdges : ℚ) / (maxEdges : ℚ)
    level := 0
    modularity := computeCommunityModularity nodeIds members.dedup adj twoM
    parentCommunityId := none }

def leidenDetect (fuel : Nat) (nodeIds : List String) (edges : List (String × String)) (totalEdgeWeight : ℚ)
    (minCommunitySize : Nat) :
    Option (List Community) :=
  if nodeIds = [] then some []
  else if totalEdgeWeight = 0 then
    if 1 < minCommunitySize then some []
    else some (nodeIds.map (fun nodeId =>
      { memberNodeIds := [nodeId], density := 0, level := 0, modularity := 0, parentCommunityId := none }))
  else
    let twoM := 2 * totalEdgeWeight
    let adj := adjWeights nodeIds edges
    (finalCommunity adj twoM fuel).map (fun community =>
      let commMembers := (commList community).map (membersOf nodeIds community)
      (commMembers.filter (fun members => minCommunitySize ≤ members.length)).map
        (foundCommunity nodeIds edges adj twoM))

section
variable {n : Nat}

def edgeWeight (adj : AdjWeights n) (i j : Fin n) : ℚ := (((adj i).filter (fun e => e.1 = j)).map Prod.snd).sum

def excess (adj : AdjWeights n) (twoM : ℚ) (i j : Fin n) : ℚ :=
  edgeWeight adj i j - degree adj i * degree adj j / twoM

/-- `Q = (1/2m) Σ [A_ij - k_i*k_j/(2m)] δ(c_i, c_j)`. -/
def modularity (adj : AdjWeights n) (twoM : ℚ) (community : Fin n → Fin n) : ℚ :=
  Lib.agreement (excess adj twoM) community / twoM

structure Undirected (adj : AdjWeights n) : Prop where
  symmetric : ∀ i j, edgeWeight adj i j = edgeWeight adj j i
  positive : ∀ i, ∀ e ∈ adj i, 0 < e.2

variable {adj : AdjWeights n} {twoM : ℚ} {community : Fin n → Fin n} {node : Fin n}

theorem sum_targets (l : List (Fin n × ℚ)) (p : Fin n → Prop) [DecidablePred p] :
    ((l.filter (fun e => p e.1)).map Prod.snd).sum =
    ∑ j, if p j then ((l.filter (fun e => e.1 = j)).map Prod.snd).sum else 0 := by
  induction l with
  | nil => simp
  | cons e rest ih =>
    have split : ∀ j, (((e :: rest).filter (fun e => e.1 = j)).map Prod.snd).sum =
        (if e.1 = j then e.2 else 0) + ((rest.filter (fun e => e.1 = j)).map Prod.snd).sum := by
      intro j
      by_cases here : e.1 = j
      · simp [here]
      · simp [here]
    have apart : ∀ j, (if p j then (((e :: rest).filter (fun e => e.1 = j)).map Prod.snd).sum else 0) =
        (if e.1 = j then (if p e.1 then e.2 else 0) else 0) + if p j then
          ((rest.filter (fun e => e.1 = j)).map Prod.snd).sum else 0 := by
      intro j
      rw [split]
      by_cases here : e.1 = j
      · subst here
        by_cases held : p e.1 <;> simp [held]
      · by_cases held : p j <;> simp [here, held]
    simp only [apart, Finset.sum_add_distrib, Finset.sum_ite_eq, Finset.mem_univ, if_true]
    by_cases held : p e.1 <;> simp [held, ih]

theorem Undirected.excess_symmetric (undirected : Undirected adj) (i j : Fin n) :
    excess adj twoM i j = excess adj twoM j i := by
  unfold excess
  rw [undirected.symmetric, mul_comm]

theorem Undirected.edgeWeight_nonneg (undirected : Undirected adj) (i j : Fin n) : 0 ≤ edgeWeight adj i j := by
  apply sum_nonneg
  intro w member
  obtain ⟨e, inside, rfl⟩ := mem_map.mp member
  exact (undirected.positive i e (mem_filter.mp inside).1).le

theorem towards_excess (community : Fin n → Fin n) (node cc : Fin n) :
    Lib.towards (excess adj twoM) community node cc =
    (((adj node).filter (fun e => community e.1 = cc)).map Prod.snd).sum -
      sigmaTot adj community cc * degree adj node / twoM := by
  have each : ∀ j, (if community j = cc then excess adj twoM node j else 0) =
      (if community j = cc then edgeWeight adj node j else 0) - (if community j = cc then degree adj j else 0) *
        (degree adj node / twoM) := by
    intro j
    unfold excess
    split <;> ring
  unfold Lib.towards sigmaTot
  rw [sum_targets (adj node) (fun j => community j = cc)]
  simp only [each, Finset.sum_sub_distrib, ← Finset.sum_mul]
  rw [mul_div_assoc]
  rfl

theorem between_excess (community : Fin n → Fin n) (ca cb : Fin n) : Lib.between (excess adj twoM) community ca cb =
    crossWeight adj community ca cb - sigmaTot adj community ca * sigmaTot adj community cb / twoM := by
  have each : ∀ i, (if community i = ca then Lib.towards (excess adj twoM) community i cb else 0) =
      (if community i = ca then (((adj i).filter (fun e => community e.1 = cb)).map Prod.snd).sum else 0) -
        (if community i = ca then degree adj i else 0) * (sigmaTot adj community cb / twoM) := by
    intro i
    rw [towards_excess]
    split <;> ring
  unfold Lib.between
  simp only [each, Finset.sum_sub_distrib, ← Finset.sum_mul]
  rw [mul_div_assoc]
  rfl

theorem weightIn_map (keys : List (Fin n)) (f : Fin n → ℚ) (cc : Fin n) :
    weightIn (keys.map (fun cc => (cc, f cc))) cc = if cc ∈ keys then f cc else 0 := by
  induction keys with
  | nil => rfl
  | cons key rest ih =>
    by_cases here : key = cc
    · subst here
      simp [weightIn]
    · have there : cc ∈ key :: rest ↔ cc ∈ rest := by simp [Ne.symm here]
      simp only [there, ← ih]
      simp [weightIn, here]

theorem weightIn_commWeights (community : Fin n → Fin n) (node cc : Fin n) :
    weightIn (commWeights adj community node) cc =
      (((adj node).filter (fun e => community e.1 = cc)).map Prod.snd).sum := by
  unfold commWeights
  rw [weightIn_map]
  split
  · rfl
  · rename_i absent
    have none : (adj node).filter (fun e => community e.1 = cc) = [] := by
      apply filter_eq_nil_iff.mpr
      intro e member here
      exact absent (mem_dedup.mpr (mem_map.mpr ⟨e, member, of_decide_eq_true here⟩))
    rw [none]
    rfl

theorem mem_candidates {cc : Fin n} {gain : ℚ} : (cc, gain) ∈ candidates adj twoM community node ↔
    cc ≠ community node ∧ (∃ e ∈ adj node, community e.1 = cc) ∧
      gain = (Lib.towards (excess adj twoM) community node cc - Lib.towards (excess adj twoM) community node
        (community node)) / twoM -
        degree adj node * degree adj node / (twoM * twoM) := by
  have value : (((adj node).filter (fun e => community e.1 = cc)).map Prod.snd).sum / twoM -
      sigmaTot adj community cc * degree adj node / (twoM * twoM) -
      ((((adj node).filter (fun e => community e.1 = community node)).map Prod.snd).sum / twoM -
        (sigmaTot adj community (community node) - degree adj node) * degree adj node / (twoM * twoM)) =
      (Lib.towards (excess adj twoM) community node cc - Lib.towards (excess adj twoM) community node
        (community node)) / twoM -
        degree adj node * degree adj node / (twoM * twoM) := by
    rw [towards_excess, towards_excess]
    ring
  simp only [candidates, mem_insertionSort, mem_map, mem_filter, decide_eq_true_iff,
    weightIn_commWeights]
  simp only [commWeights, mem_map, mem_dedup]
  constructor
  · rintro ⟨w, ⟨⟨cc', ⟨e, member, rfl⟩, rfl⟩, apart⟩, same⟩
    cases same
    exact ⟨apart, ⟨e, member, rfl⟩, value⟩
  · rintro ⟨apart, ⟨e, member, rfl⟩, rfl⟩
    exact ⟨_, ⟨⟨_, ⟨e, member, rfl⟩, rfl⟩, apart⟩, Prod.ext rfl value⟩

theorem bestComm_cases (adj : AdjWeights n) (twoM : ℚ) (community : Fin n → Fin n) (node : Fin n) :
    bestComm adj twoM community node = community node ∨ ∃ gain,
      (bestComm adj twoM community node, gain) ∈ candidates adj twoM community node ∧ 0 < gain := by
  unfold bestComm
  cases first : (candidates adj twoM community node).head? with
  | none => exact .inl rfl
  | some best =>
    obtain ⟨cc, gain⟩ := best
    dsimp only
    split
    · rename_i positive
      exact .inr ⟨gain, mem_of_mem_head? first, positive⟩
    · exact .inl rfl

theorem Undirected.move_gains (undirected : Undirected adj) (positive : 0 ≤ twoM)
    (moves : bestComm adj twoM community node ≠ community node) :
    modularity adj twoM community < modularity adj twoM
      (update community node (bestComm adj twoM community node)) := by
  obtain ⟨gain, member, gains⟩ := (bestComm_cases adj twoM community node).resolve_left moves
  obtain ⟨apart, _, rfl⟩ := mem_candidates.mp member
  have some : 0 < twoM := by
    rcases positive.lt_or_eq with some | rfl
    · exact some
    · simp at gains
  have loops := undirected.edgeWeight_nonneg node node
  unfold modularity
  rw [Lib.agreement_update undirected.excess_symmetric community node apart.symm]
  apply (div_lt_div_iff_of_pos_right some).mpr
  -- what the formula takes from the gain for a loop is not lost
  have loop : excess adj twoM node node = edgeWeight adj node node - degree adj node * degree adj node / twoM := rfl
  have scaled := mul_pos gains some
  have cleared : (Lib.towards (excess adj twoM) community node (bestComm adj twoM community node) -
      Lib.towards (excess adj twoM) community node (community node)) / twoM * twoM -
        degree adj node * degree adj node / (twoM * twoM) * twoM =
      Lib.towards (excess adj twoM) community node (bestComm adj twoM community node) -
        Lib.towards (excess adj twoM) community node (community node) - degree adj node * degree adj node / twoM := by
    field_simp
  rw [sub_mul, cleared] at scaled
  rw [loop]
  linarith

def Confined {γ : Type} (component : Fin n → γ) (community : Fin n → Fin n) : Prop :=
  ∀ i j, community i = community j → component i = component j

variable {γ : Type} {component : Fin n → γ}

theorem Confined.move (confined : Confined component community)
    (joined : ∀ i, ∀ e ∈ adj i, component i = component e.1) (node : Fin n) :
    Confined component (update community node (bestComm adj twoM community node)) := by
  rcases bestComm_cases adj twoM community node with stays | ⟨gain, member, _⟩
  · rwa [stays, update_eq_self]
  · obtain ⟨_, ⟨e, inside, there⟩, _⟩ := mem_candidates.mp member
    have next := joined node e inside
    rw [← there]
    have here : ∀ i, i ≠ node → community i = community e.1 → component i = component node :=
      fun i _ same => (confined i e.1 same).trans next.symm
    intro i j same
    by_cases left : i = node
    · by_cases right : j = node
      · rw [left, right]
      · rw [left, update_self, update_of_ne right] at same
        rw [left]
        exact (here j right same.symm).symm
    · by_cases right : j = node
      · rw [right, update_self, update_of_ne left] at same
        rw [right]
        exact here i left same
      · rw [update_of_ne left, update_of_ne right] at same
        exact confined i j same

variable {holds : (Fin n → Fin n) → Prop} {ca cb : Fin n}

theorem localPass_keeps (keeps : ∀ community node, holds community →
    holds (update community node (bestComm adj twoM community node))) (start : holds community) :
    holds (localPass adj twoM community).1 := by
  unfold localPass
  refine foldlRecOn (motive := fun s : (Fin n → Fin n) × Bool => holds s.1) _ _ start (fun s held node _ => ?_)
  split
  · exact keeps s.1 node held
  · exact held

theorem Undirected.pass_gains (undirected : Undirected adj) (positive : 0 ≤ twoM) (community : Fin n → Fin n) :
    ((localPass adj twoM community).2 = true → modularity adj twoM community < modularity adj twoM
      (localPass adj twoM community).1) ∧
      ((localPass adj twoM community).2 = false → (localPass adj twoM community).1 = community) := by
  unfold localPass
  refine foldlRecOn (motive := fun s : (Fin n → Fin n) × Bool =>
    (s.2 = true → modularity adj twoM community < modularity adj twoM s.1) ∧ (s.2 = false → s.1 = community)) _ _ ?_
      (fun s held node _ => ?_)
  · exact ⟨fun moved => absurd moved Bool.false_ne_true, fun _ => rfl⟩
  · split
    · rename_i moves
      refine ⟨fun _ => ?_, fun still => absurd still.symm Bool.false_ne_true⟩
      have gains := undirected.move_gains positive moves
      obtain ⟨same, moved⟩ := s
      cases moved with
      | true => exact (held.1 rfl).trans gains
      | false =>
        obtain rfl := held.2 rfl
        exact gains
    · exact held

theorem mergeStep_cases (s : (Fin n → Fin n) × List (Fin n)) :
    mergeStep adj twoM s = (s, false) ∨ ∃ i j : Fin s.2.length, mergeable adj twoM s.1 (s.2.get i)
      (s.2.get j) = true ∧
      mergeStep adj twoM s = ((fun x => if s.1 x = s.2.get j then s.2.get i else s.1 x, s.2.eraseIdx j), true) := by
  unfold mergeStep
  dsimp only
  split
  · rename_i i j found
    exact .inr ⟨i, j, by simpa using find?_some found, rfl⟩
  · exact .inl rfl

theorem joined_of_mergeable (some : 0 < twoM) (mergeable : mergeable adj twoM community ca cb = true) :
    ∃ a, community a = ca ∧ ∃ e ∈ adj a, community e.1 = cb := by
  obtain ⟨sa, sb, gain⟩ := of_decide_eq_true mergeable
  by_contra apart
  push Not at apart
  have none : crossWeight adj community ca cb = 0 := by
    apply Finset.sum_eq_zero
    intro a _
    split
    · rename_i here
      have empty : (adj a).filter (fun e => community e.1 = cb) = [] :=
        filter_eq_nil_iff.mpr (fun e member there => apart a here e member (of_decide_eq_true there))
      rw [empty]
      rfl
    · rfl
  have loss : 0 < sigmaTot adj community ca * sigmaTot adj community cb / (twoM * twoM) := div_pos (mul_pos sa sb)
      (mul_pos some some)
  rw [none, zero_div] at gain
  linarith

theorem Confined.merge (confined : Confined component community)
    (joined : ∀ i, ∀ e ∈ adj i, component i = component e.1) (some : 0 < twoM)
    (mergeable : mergeable adj twoM community ca cb = true) :
    Confined component (fun x => if community x = cb then ca else community x) := by
  obtain ⟨a, here, e, inside, there⟩ := joined_of_mergeable some mergeable
  have across : ∀ i j, community i = cb → community j = ca → component i = component j := fun i j left right =>
    (confined i e.1 (left.trans there.symm)).trans
      ((joined a e inside).symm.trans (confined a j (here.trans right.symm)))
  intro i j same
  dsimp only at same
  by_cases left : community i = cb <;> by_cases right : community j = cb
  · exact confined i j (left.trans right.symm)
  · rw [if_pos left, if_neg right] at same
    exact across i j left same.symm
  · rw [if_neg left, if_pos right] at same
    exact (across j i right same).symm
  · rw [if_neg left, if_neg right] at same
    exact confined i j same

theorem Undirected.merge_gains (undirected : Undirected adj) (positive : 0 ≤ twoM)
    (mergeable : mergeable adj twoM community ca cb = true) :
    modularity adj twoM community ≤ modularity adj twoM (fun x => if community x = cb then ca else community x) := by
  obtain ⟨_, _, gain⟩ := of_decide_eq_true mergeable
  by_cases same : ca = cb
  · subst same
    have nothing : (fun x => if community x = ca then ca else community x) = community := by
      funext x
      split
      · rename_i here
        exact here.symm
      · rfl
    rw [nothing]
  · unfold modularity
    rw [Lib.agreement_union undirected.excess_symmetric community same, between_excess]
    rcases positive.lt_or_eq with some | rfl
    · have cleared := mul_nonneg gain some.le
      have scaled : (crossWeight adj community ca cb / twoM - sigmaTot adj community ca * sigmaTot adj community cb /
          (twoM * twoM)) * twoM =
          crossWeight adj community ca cb - sigmaTot adj community ca * sigmaTot adj community cb / twoM := by
        field_simp
      rw [scaled] at cleared
      apply div_le_div_of_nonneg_right _ positive
      linarith
    · rw [div_zero, div_zero]

theorem gains_order (adj : AdjWeights n) (twoM : ℚ) :
    WellFounded (fun t s : (Fin n → Fin n) × Bool => modularity adj twoM s.1 < modularity adj twoM t.1) := by
  have trans : IsTrans ((Fin n → Fin n) × Bool) (fun t s => modularity adj twoM s.1 < modularity adj twoM t.1) :=
    ⟨fun _ _ _ left right => right.trans left⟩
  have irrefl : Std.Irrefl (fun t s : (Fin n → Fin n) × Bool => modularity adj twoM s.1 < modularity adj twoM t.1) :=
    ⟨fun _ => lt_irrefl _⟩
  exact Finite.wellFounded_of_trans_of_irrefl _

theorem Undirected.localMoving_ends (undirected : Undirected adj) (positive : 0 ≤ twoM) (s : (Fin n → Fin n) × Bool) :
    ∃ fuel t, localMoving adj twoM fuel s = some t :=
  Lib.repeatWhile_ends (gains_order adj twoM) (fun s => (undirected.pass_gains positive s.1).1) s

theorem merging_ends (adj : AdjWeights n) (twoM : ℚ) (s : (Fin n → Fin n) × List (Fin n)) :
    ∃ fuel t, repeatWhile (mergeStep adj twoM) fuel s = some t := by
  refine Lib.repeatWhile_ends (measure (fun s : (Fin n → Fin n) × List (Fin n) => s.2.length)).wf
    (fun s merges => ?_) s
  rcases mergeStep_cases s with stays | ⟨i, j, _, merged⟩
  · rw [stays] at merges
    cases merges
  · show (mergeStep adj twoM s).1.2.length < s.2.length
    rw [merged, length_eraseIdx_of_lt j.2]
    have := j.2
    omega

structure Kept (adj : AdjWeights n) (twoM : ℚ) (holds : (Fin n → Fin n) → Prop) : Prop where
  move : ∀ community node, holds community → holds (update community node (bestComm adj twoM community node))
  merge : ∀ community ca cb, mergeable adj twoM community ca cb = true → holds community →
    holds (fun x => if community x = cb then ca else community x)

theorem Kept.movingRounds (kept : Kept adj twoM holds)
    (undirected : Undirected adj) (positive : 0 ≤ twoM) (rounds : Nat) (start : holds community) :
    ∃ t, holds t ∧ ∃ enough, ∀ fuel ≥ enough, movingRounds adj twoM fuel rounds community = some t := by
  induction rounds generalizing community with
  | zero => exact ⟨community, start, 0, fun _ _ => rfl⟩
  | succ rounds ih =>
    obtain ⟨enough, s, ends⟩ := undirected.localMoving_ends positive (community, false)
    have held : holds s.1 :=
      Lib.repeatWhile_keeps (fun s : (Fin n → Fin n) × Bool => holds s.1)
        (fun s held => localPass_keeps kept.move held) start ends
    cases improved : s.2 with
    | true =>
      obtain ⟨t, after, more, later⟩ := ih held
      refine ⟨t, after, max enough more, fun fuel above => ?_⟩
      have moved : localMoving adj twoM fuel (community, false) = some s :=
        Lib.repeatWhile_more ends (le_of_max_le_left above)
      rw [Graph.movingRounds, moved, Option.bind_some, improved, if_pos rfl]
      exact later fuel (le_of_max_le_right above)
    | false =>
      refine ⟨s.1, held, enough, fun fuel above => ?_⟩
      have moved : localMoving adj twoM fuel (community, false) = some s := Lib.repeatWhile_more ends above
      rw [Graph.movingRounds, moved, Option.bind_some, improved]
      rfl

theorem Kept.finalCommunity (kept : Kept adj twoM holds)
    (undirected : Undirected adj) (positive : 0 ≤ twoM) (start : holds id) :
    ∃ t, holds t ∧ ∃ enough, ∀ fuel ≥ enough, finalCommunity adj twoM fuel = some t := by
  obtain ⟨community, held, enough, moved⟩ := kept.movingRounds undirected positive 10 start
  by_cases several : 1 < (commList community).length
  · obtain ⟨more, s, ends⟩ := merging_ends adj twoM (community, commList community)
    have after : holds s.1 := by
      refine Lib.repeatWhile_keeps (fun s : (Fin n → Fin n) × List (Fin n) => holds s.1) (fun s held => ?_) held ends
      rcases mergeStep_cases s with stays | ⟨i, j, mergeable, merged⟩
      · rwa [stays]
      · rw [merged]
        exact kept.merge s.1 _ _ mergeable held
    refine ⟨s.1, after, max enough more, fun fuel above => ?_⟩
    rw [Graph.finalCommunity, moved fuel (le_of_max_le_left above), Option.bind_some, if_pos several,
      Lib.repeatWhile_more ends (le_of_max_le_right above)]
    rfl
  · refine ⟨community, held, enough, fun fuel above => ?_⟩
    rw [Graph.finalCommunity, moved fuel above, Option.bind_some, if_neg several]

end

section
variable {nodeIds : List String} {edges : List (String × String)}

theorem nodeToIdx_get {id : String} {i : Fin nodeIds.length} (found : nodeToIdx nodeIds id = some i) :
    nodeIds.get i = id := by
  unfold nodeToIdx at found
  have all : ∀ found', (finRange nodeIds.length).foldl (fun found i => if nodeIds.get i = id then some i
      else found) none = found' →
      ∀ i ∈ found', nodeIds.get i = id := by
    rintro _ rfl
    refine foldlRecOn (motive := fun found : Option (Fin nodeIds.length) => ∀ i ∈ found, nodeIds.get i = id) _ _
      (by simp) (fun found held j _ => ?_)
    split
    · rename_i here
      intro i member
      cases member
      exact here
    · exact held
  exact all _ found i rfl

def knownGraph (nodeIds : List String) (edges : List (String × String)) : SimpleGraph String :=
  SimpleGraph.fromRel (fun a b => (a, b) ∈ edges ∧ a ∈ nodeIds ∧ b ∈ nodeIds)

theorem edgeWeight_push {n : Nat} (adj : AdjWeights n) (i j x y : Fin n) :
    edgeWeight (adj.push i j) x y = edgeWeight adj x y + if x = i ∧ y = j then 1 else 0 := by
  unfold edgeWeight AdjWeights.push
  by_cases here : x = i
  · subst here
    by_cases there : j = y
    · simp [there]
    · simp [there, Ne.symm there]
  · simp [here]

theorem mem_push {n : Nat} {adj : AdjWeights n} {i j x : Fin n} {e : Fin n × ℚ} (member : e ∈ adj.push i j x) :
    e ∈ adj x ∨ x = i ∧ e = (j, 1) := by
  unfold AdjWeights.push at member
  by_cases here : x = i
  · subst here
    rw [update_self, mem_append, mem_singleton] at member
    exact member.imp_right (fun same => ⟨rfl, same⟩)
  · rw [update_of_ne here] at member
    exact .inl member

theorem Undirected.pushed {n : Nat} {adj : AdjWeights n} (undirected : Undirected adj) (i j : Fin n) :
    Undirected ((adj.push i j).push j i) := by
  constructor
  · intro x y
    simp only [edgeWeight_push]
    rw [undirected.symmetric x y, add_assoc, add_assoc, add_comm (if x = i ∧ y = j then _ else _)]
    congr 2
    · exact if_congr and_comm rfl rfl
    · exact if_congr and_comm rfl rfl
  · intro x e member
    rcases mem_push member with earlier | ⟨_, rfl⟩
    · rcases mem_push earlier with before | ⟨_, rfl⟩
      · exact undirected.positive x e before
      · exact one_pos
    · exact one_pos

theorem addEdge_cases (adj : AdjWeights nodeIds.length) (e : String × String) : adj.addEdge nodeIds e = adj ∨
    ∃ si ti, nodeToIdx nodeIds e.1 = some si ∧ nodeToIdx nodeIds e.2 = some ti ∧
      adj.addEdge nodeIds e = (adj.push si ti).push ti si := by
  unfold AdjWeights.addEdge
  split
  · rename_i si ti source target
    exact .inr ⟨si, ti, source, target, rfl⟩
  · exact .inl rfl

theorem adjWeights_undirected (nodeIds : List String) (edges : List (String × String)) :
    Undirected (adjWeights nodeIds edges) := by
  unfold adjWeights
  refine foldlRecOn (motive := Undirected) _ _ ⟨fun _ _ => rfl, by simp⟩ (fun adj held e _ => ?_)
  rcases addEdge_cases adj e with same | ⟨si, ti, _, _, added⟩
  · rwa [same]
  · rw [added]
    exact held.pushed si ti

theorem component_eq {e : String × String} (inside : e ∈ edges) {i j : Fin nodeIds.length}
    (source : nodeToIdx nodeIds e.1 = some i) (target : nodeToIdx nodeIds e.2 = some j) :
    (knownGraph nodeIds edges).connectedComponentMk (nodeIds.get i) = (knownGraph nodeIds edges).connectedComponentMk
      (nodeIds.get j) := by
  apply SimpleGraph.ConnectedComponent.eq.mpr
  by_cases same : nodeIds.get i = nodeIds.get j
  · rw [same]
  · apply SimpleGraph.Adj.reachable
    refine (SimpleGraph.fromRel_adj _ _ _).mpr ⟨same, .inl ⟨?_, get_mem _ _, get_mem _ _⟩⟩
    rw [nodeToIdx_get source, nodeToIdx_get target]
    exact inside

theorem adjWeights_joined (nodeIds : List String) (edges : List (String × String)) :
    ∀ i, ∀ e ∈ adjWeights nodeIds edges i,
    (knownGraph nodeIds edges).connectedComponentMk (nodeIds.get i) = (knownGraph nodeIds edges).connectedComponentMk
      (nodeIds.get e.1) := by
  unfold adjWeights
  refine foldlRecOn (motive := fun adj : AdjWeights nodeIds.length => ∀ i, ∀ e ∈ adj i,
    (knownGraph nodeIds edges).connectedComponentMk (nodeIds.get i) =
    (knownGraph nodeIds edges).connectedComponentMk (nodeIds.get e.1)) _ _
      (fun _ _ none => absurd none not_mem_nil) (fun adj held edge inside => ?_)
  intro i e member
  rcases addEdge_cases adj edge with same | ⟨si, ti, source, target, added⟩
  · rw [same] at member
    exact held i e member
  · rw [added] at member
    rcases mem_push member with earlier | ⟨rfl, rfl⟩
    · rcases mem_push earlier with before | ⟨rfl, rfl⟩
      · exact held i e before
      · exact component_eq inside source target
    · exact (component_eq inside source target).symm

end

section
variable {nodeIds : List String}

theorem mem_membersOf {community : Fin nodeIds.length → Fin nodeIds.length} {c : Fin nodeIds.length} {id : String} :
    id ∈ membersOf nodeIds community c ↔ ∃ i, community i = c ∧ nodeIds.get i = id := by
  unfold membersOf
  simp [mem_map, mem_filter]

theorem membersOf_disjoint (distinct : nodeIds.Nodup) {community : Fin nodeIds.length → Fin nodeIds.length}
    {c d : Fin nodeIds.length} (apart : c ≠ d) :
    (membersOf nodeIds community c).Disjoint (membersOf nodeIds community d) := by
  intro id left right
  obtain ⟨i, rfl, same⟩ := mem_membersOf.mp left
  obtain ⟨j, rfl, rfl⟩ := mem_membersOf.mp right
  exact apart (congrArg community (distinct.injective_get same))

/-- What a detection promises of the communities it puts out. -/
structure Partitions (nodeIds : List String) (edges : List (String × String)) (minCommunitySize : Nat)
    (communities : List Community) : Prop where
  disjoint : communities.Pairwise (fun a b => a.memberNodeIds.Disjoint b.memberNodeIds)
  size : ∀ community ∈ communities, minCommunitySize ≤ community.memberNodeIds.length
  covers : minCommunitySize ≤ 1 → ∀ id ∈ nodeIds, ∃ community ∈ communities, id ∈ community.memberNodeIds
  connected : ∀ community ∈ communities, ∀ a ∈ community.memberNodeIds, ∀ b ∈ community.memberNodeIds,
    (knownGraph nodeIds edges).Reachable a b

theorem partitions_of_confined (distinct : nodeIds.Nodup) {edges : List (String × String)}
    {community : Fin nodeIds.length → Fin nodeIds.length}
    (confined : Confined (fun i => (knownGraph nodeIds edges).connectedComponentMk (nodeIds.get i)) community)
    (minCommunitySize : Nat) (found : List String → Community)
    (members : ∀ ids, (found ids).memberNodeIds = ids) :
    Partitions nodeIds edges minCommunitySize ((((commList community).map (membersOf nodeIds community)).filter
        (fun members => minCommunitySize ≤ members.length)).map found) := by
  have inside : ∀ x ∈ (((commList community).map (membersOf nodeIds community)).filter
      (fun members => minCommunitySize ≤ members.length)).map found,
      ∃ c, x.memberNodeIds = membersOf nodeIds community c ∧
        minCommunitySize ≤ (membersOf nodeIds community c).length := by
    intro x member
    obtain ⟨ids, kept, rfl⟩ := mem_map.mp member
    obtain ⟨listed, large⟩ := mem_filter.mp kept
    obtain ⟨c, _, rfl⟩ := mem_map.mp listed
    exact ⟨c, members _, of_decide_eq_true large⟩
  constructor
  · apply List.Pairwise.map (R := List.Disjoint)
    · intro a b apart
      rwa [members, members]
    · apply List.Pairwise.filter
      apply List.Pairwise.map (R := fun c d => c ≠ d)
      · exact fun c d apart => membersOf_disjoint distinct apart
      · exact (nodup_finRange _).filter _
  · intro x member
    obtain ⟨c, same, large⟩ := inside x member
    rwa [same]
  · intro small id known
    obtain ⟨i, rfl⟩ := get_of_mem known
    have own : nodeIds.get i ∈ membersOf nodeIds community (community i) := mem_membersOf.mpr ⟨i, rfl, rfl⟩
    refine ⟨found (membersOf nodeIds community (community i)),
      mem_map.mpr ⟨_, mem_filter.mpr ⟨mem_map.mpr ⟨_, mem_filter.mpr ⟨mem_finRange _, decide_eq_true ⟨i, rfl⟩⟩, rfl⟩, ?_⟩, rfl⟩, ?_⟩
    · exact decide_eq_true (Nat.le_trans small (length_pos_of_mem own))
    · rwa [members]
  · intro x member a left b right
    obtain ⟨c, same, _⟩ := inside x member
    rw [same] at left right
    obtain ⟨i, here, rfl⟩ := mem_membersOf.mp left
    obtain ⟨j, there, rfl⟩ := mem_membersOf.mp right
    exact SimpleGraph.ConnectedComponent.eq.mp (confined i j (here.trans there.symm))

theorem kept_confined {edges : List (String × String)} {twoM : ℚ} (some : 0 < twoM) :
    Kept (adjWeights nodeIds edges) twoM
    (Confined (fun i => (knownGraph nodeIds edges).connectedComponentMk (nodeIds.get i))) :=
  ⟨fun _ node held => held.move (adjWeights_joined nodeIds edges) node, fun _ _ _ mergeable held =>
    held.merge (adjWeights_joined nodeIds edges) some mergeable⟩

end

/-- In exact arithmetic the communities are parts of components, of the wanted size, and no node is left out
unless by its community's size. -/
theorem leiden_partitions (nodeIds : List String) (edges : List (String × String)) (minCommunitySize : Nat)
    (distinct : nodeIds.Nodup) :
    ∃ communities, Partitions nodeIds edges minCommunitySize communities ∧
      ∃ enough, ∀ fuel ≥ enough, leidenDetect fuel nodeIds edges edges.length minCommunitySize =
        some communities := by
  unfold leidenDetect
  by_cases empty : nodeIds = []
  · refine ⟨[], ⟨.nil, by simp, by simp [empty], by simp⟩, 0, fun _ _ => if_pos empty⟩
  · simp only [if_neg empty]
    by_cases unweighted : (edges.length : ℚ) = 0
    · simp only [if_pos unweighted]
      by_cases large : 1 < minCommunitySize
      · refine ⟨[], ⟨.nil, by simp, fun small => absurd large (by omega), by simp⟩, 0, fun _ _ => if_pos large⟩
      · refine ⟨_, ⟨?_, ?_, ?_, ?_⟩, 0, fun _ _ => if_neg large⟩
        · apply List.Pairwise.map (R := fun a b => a ≠ b)
          · exact fun a b apart => by simpa using apart.symm
          · exact distinct
        · intro x member
          obtain ⟨id, _, rfl⟩ := mem_map.mp member
          exact Nat.le_of_not_lt large
        · intro _ id known
          exact ⟨_, mem_map.mpr ⟨id, known, rfl⟩, mem_singleton_self _⟩
        · intro x member a left b right
          obtain ⟨id, _, rfl⟩ := mem_map.mp member
          rw [mem_singleton.mp left, mem_singleton.mp right]
    · simp only [if_neg unweighted]
      have positive : (0 : ℚ) < 2 * edges.length := by
        have some : (0 : ℚ) < edges.length := lt_of_le_of_ne (Nat.cast_nonneg _) (Ne.symm unweighted)
        linarith
      obtain ⟨community, confined, enough, ends⟩ :=
          (kept_confined positive).finalCommunity (adjWeights_undirected nodeIds edges) positive.le
        (fun i j same => by rw [show i = j from same])
      refine ⟨_, partitions_of_confined distinct confined minCommunitySize
        (foundCommunity nodeIds edges (adjWeights nodeIds edges) (2 * edges.length))
        (fun _ => rfl), enough, fun fuel above => ?_⟩
      rw [ends fuel above]
      rfl

theorem leiden_partitions_sample : ∃ communities, Partitions ["a", "b", "c"]
    [("a", "b"), ("b", "a"), ("c", "c"), ("c", "d")] 1 communities ∧
    ∃ enough, ∀ fuel ≥ enough, leidenDetect fuel ["a", "b", "c"] [("a", "b"), ("b", "a"), ("c", "c"), ("c", "d")]
      [("a", "b"), ("b", "a"), ("c", "c"), ("c", "d")].length 1 = some communities :=
  leiden_partitions _ _ _ (by decide)

/-- In exact arithmetic both loops end from any state, a move gains modularity, a merge loses none, and so the
communities in the end have at least that of single nodes. -/
theorem leiden_gains (nodeIds : List String) (edges : List (String × String)) :
    let adj := adjWeights nodeIds edges
    let twoM : ℚ := 2 * edges.length
    (∀ s, ∃ enough t, ∀ fuel ≥ enough, localMoving adj twoM fuel s = some t) ∧
      (∀ s, ∃ enough t, ∀ fuel ≥ enough, repeatWhile (mergeStep adj twoM) fuel s = some t) ∧
      (∀ community node, bestComm adj twoM community node ≠ community node →
        modularity adj twoM community < modularity adj twoM
          (update community node (bestComm adj twoM community node))) ∧
      (∀ s, (mergeStep adj twoM s).2 = true → modularity adj twoM s.1 ≤ modularity adj twoM
        (mergeStep adj twoM s).1.1) ∧
      ∃ enough final, (∀ fuel ≥ enough, finalCommunity adj twoM fuel = some final) ∧
        modularity adj twoM id ≤ modularity adj twoM final := by
  intro adj twoM
  have undirected := adjWeights_undirected nodeIds edges
  have positive : 0 ≤ twoM := mul_nonneg zero_le_two (Nat.cast_nonneg _)
  refine ⟨fun s => ?_, fun s => ?_, fun community node moves => undirected.move_gains positive moves,
    fun s merges => ?_, ?_⟩
  · obtain ⟨enough, t, ends⟩ := undirected.localMoving_ends positive s
    exact ⟨enough, t, fun fuel above => Lib.repeatWhile_more ends above⟩
  · obtain ⟨enough, t, ends⟩ := merging_ends adj twoM s
    exact ⟨enough, t, fun fuel above => Lib.repeatWhile_more ends above⟩
  · rcases mergeStep_cases s with stays | ⟨i, j, mergeable, merged⟩
    · rw [stays] at merges
      cases merges
    · rw [merged]
      exact undirected.merge_gains positive mergeable
  · have kept : Kept adj twoM (fun community => modularity adj twoM id ≤ modularity adj twoM community) := by
      refine ⟨fun community node held => ?_, fun community ca cb mergeable held =>
        held.trans (undirected.merge_gains positive mergeable)⟩
      by_cases moves : bestComm adj twoM community node = community node
      · rwa [moves, update_eq_self]
      · exact held.trans (undirected.move_gains positive moves).le
    obtain ⟨final, held, enough, ends⟩ := kept.finalCommunity undirected positive le_rfl
    exact ⟨enough, final, ends, held⟩

end Aeterna.Graph
