/-
Depth-first search for a cycle in a finite graph.  A vertex is unseen, on the
path that is being searched, or done; meeting a vertex of the path again
closes a cycle.
-/
import Mathlib

namespace DepthFirst

universe u

open Relation

inductive Mark where
  | unseen
  | active
  | done
deriving Repr, DecidableEq

variable {V : Type u} [DecidableEq V] [Fintype V]

/-- How many vertices are still unseen. -/
def unseen (marks : V → Mark) : Nat :=
  (Finset.univ.filter fun vertex => marks vertex = .unseen).card

/-- Change the mark of one vertex. -/
def mark (marks : V → Mark) (vertex : V) (value : Mark) : V → Mark :=
  Function.update marks vertex value

omit [Fintype V] in
@[simp] theorem mark_self (marks : V → Mark) (vertex : V) (value : Mark) :
    mark marks vertex value vertex = value := by
  rw [mark, Function.update_self]

omit [Fintype V] in
theorem mark_of_ne {marks : V → Mark} {vertex other : V} {value : Mark}
    (hne : other ≠ vertex) : mark marks vertex value other = marks other := by
  rw [mark, Function.update_of_ne hne]

theorem unseen_mark_le {marks : V → Mark} (vertex : V) {value : Mark}
    (hvalue : value ≠ .unseen) :
    unseen (mark marks vertex value) ≤ unseen marks := by
  apply Finset.card_le_card
  intro other hother
  rw [Finset.mem_filter] at hother ⊢
  refine ⟨hother.1, ?_⟩
  by_cases hsame : other = vertex
  · rw [hsame, mark_self] at hother
    exact absurd hother.2 hvalue
  · rw [mark_of_ne hsame] at hother
    exact hother.2

theorem unseen_mark_lt {marks : V → Mark} {vertex : V} {value : Mark}
    (hunseen : marks vertex = .unseen) (hvalue : value ≠ .unseen) :
    unseen (mark marks vertex value) < unseen marks := by
  apply Finset.card_lt_card
  rw [Finset.ssubset_iff_of_subset]
  · refine ⟨vertex, by simpa using hunseen, ?_⟩
    simpa using hvalue
  · intro other hother
    rw [Finset.mem_filter] at hother ⊢
    refine ⟨hother.1, ?_⟩
    by_cases hsame : other = vertex
    · rw [hsame]
      exact hunseen
    · rw [mark_of_ne hsame] at hother
      exact hother.2

/-- What a search leaves behind; no vertex becomes unseen again. -/
structure Found (start : V → Mark) where
  cycle : Bool
  marks : V → Mark
  le : unseen marks ≤ unseen start

mutual

/-- Search from a vertex. -/
def visit (next : V → List V) (marks : V → Mark) (vertex : V) :
    Found marks :=
  match hmark : marks vertex with
  | .active => ⟨true, marks, Nat.le_refl _⟩
  | .done => ⟨false, marks, Nat.le_refl _⟩
  | .unseen =>
      have hlt : unseen (mark marks vertex .active) < unseen marks :=
        unseen_mark_lt hmark Mark.noConfusion
      let found := visitAll next (mark marks vertex .active) (next vertex)
      if found.cycle then ⟨true, found.marks, Nat.le_trans found.le hlt.le⟩
      else
        ⟨false, mark found.marks vertex .done,
          Nat.le_trans (unseen_mark_le vertex Mark.noConfusion)
            (Nat.le_trans found.le hlt.le)⟩
termination_by (unseen marks, 0)

/-- Search from the vertices of a list until a cycle is found. -/
def visitAll (next : V → List V) (marks : V → Mark) :
    List V → Found marks
  | [] => ⟨false, marks, Nat.le_refl _⟩
  | vertex :: rest =>
      let first := visit next marks vertex
      if first.cycle then first
      else
        let others := visitAll next first.marks rest
        ⟨others.cycle, others.marks, Nat.le_trans others.le first.le⟩
termination_by vertices => (unseen marks, vertices.length + 1)
decreasing_by
  · exact Prod.Lex.right _ (Nat.succ_pos _)
  · rcases Nat.lt_or_eq_of_le first.le with hlt | heq
    · exact Prod.Lex.left _ _ hlt
    · rw [heq]
      exact Prod.Lex.right _ (Nat.lt_succ_self _)

end

/-- The search says that there is a cycle. -/
def hasCycle (next : V → List V) (vertices : List V) : Bool :=
  (visitAll next (fun _ => .unseen) vertices).cycle

def Edge (next : V → List V) (source target : V) : Prop :=
  target ∈ next source

def Acyclic (next : V → List V) : Prop :=
  ∀ vertex, ¬ TransGen (Edge next) vertex vertex

/-- What is done leads to what is done, and not back to itself. -/
structure Settled (next : V → List V) (marks : V → Mark) : Prop where
  closed : ∀ vertex, marks vertex = .done → ∀ target ∈ next vertex,
    marks target = .done
  loopless : ∀ vertex, marks vertex = .done →
    ¬ TransGen (Edge next) vertex vertex

/-- Only unseen vertices changed, and none of them is left on the path. -/
structure Extends (before after : V → Mark) : Prop where
  kept : ∀ vertex, before vertex ≠ .unseen → after vertex = before vertex
  active : ∀ vertex, after vertex = .active → before vertex = .active

/-- The path leads to the vertex. -/
def LeadsTo (next : V → List V) (marks : V → Mark) (vertex : V) : Prop :=
  ∀ source, marks source = .active → TransGen (Edge next) source vertex

/-- What a search from some vertices means. -/
structure Searched (next : V → List V) {start : V → Mark}
    (vertices : List V) (found : Found start) : Prop where
  cycle : found.cycle = true → ¬ Acyclic next
  settled : found.cycle = false → Settled next found.marks
  extends_start : found.cycle = false → Extends start found.marks
  done : found.cycle = false → ∀ vertex ∈ vertices,
    found.marks vertex = .done

section Marks

omit [DecidableEq V] [Fintype V]

variable {next : V → List V} {marks : V → Mark}

theorem Extends.refl (marks : V → Mark) : Extends marks marks :=
  ⟨fun _ _ => rfl, fun _ hactive => hactive⟩

theorem Extends.trans {first second third : V → Mark}
    (hleft : Extends first second) (hright : Extends second third) :
    Extends first third where
  kept vertex hseen := by
    have hsame := hleft.kept vertex hseen
    rw [hright.kept vertex (by rwa [hsame]), hsame]
  active vertex hactive :=
    hleft.active vertex (hright.active vertex hactive)

/-- Along edges one stays among the vertices that are done. -/
theorem Settled.done_of_path (hsettled : Settled next marks)
    {source target : V} (hsource : marks source = .done)
    (hpath : TransGen (Edge next) source target) : marks target = .done := by
  induction hpath with
  | single hedge => exact hsettled.closed source hsource _ hedge
  | tail _ hedge ih => exact hsettled.closed _ ih _ hedge

end Marks

section Search

variable {next : V → List V} {marks : V → Mark} {vertex : V}

omit [Fintype V] in
/-- A vertex whose edges lead to done vertices may be done too. -/
theorem Settled.finish (hsettled : Settled next marks)
    (hactive : marks vertex = .active)
    (hnext : ∀ target ∈ next vertex, marks target = .done) :
    Settled next (mark marks vertex .done) := by
  have hdone : ∀ other, mark marks vertex .done other = .done ↔
      other = vertex ∨ marks other = .done := by
    intro other
    by_cases hsame : other = vertex
    · simp [hsame]
    · simp [mark_of_ne hsame, hsame]
  have hloop : ¬ TransGen (Edge next) vertex vertex := by
    intro hcycle
    obtain ⟨target, hedge, hback⟩ := TransGen.head'_iff.mp hcycle
    have htarget := hnext target hedge
    rcases reflTransGen_iff_eq_or_transGen.mp hback with heq | hpath
    · rw [heq, htarget] at hactive
      cases hactive
    · have hend := hsettled.done_of_path htarget hpath
      rw [hactive] at hend
      cases hend
  constructor
  · intro source hsource target htarget
    rw [hdone] at hsource ⊢
    rcases hsource with rfl | hsource
    · exact Or.inr (hnext target htarget)
    · exact Or.inr (hsettled.closed source hsource target htarget)
  · intro source hsource
    rcases (hdone source).mp hsource with rfl | hsource
    · exact hloop
    · exact hsettled.loopless source hsource

omit [Fintype V] in
theorem LeadsTo.enter (hleads : LeadsTo next marks vertex) {target : V}
    (htarget : target ∈ next vertex) :
    LeadsTo next (mark marks vertex .active) target := by
  intro source hsource
  by_cases hsame : source = vertex
  · rw [hsame]
    exact .single htarget
  · rw [mark_of_ne hsame] at hsource
    exact (hleads source hsource).tail htarget

omit [DecidableEq V] in
theorem Searched.of_cycle {start : V → Mark} {vertices : List V}
    {found : Found start} (hfound : found.cycle = true)
    (hcycle : ¬ Acyclic next) : Searched next vertices found := by
  have hnot : found.cycle ≠ false := by
    rw [hfound]
    exact Bool.noConfusion
  exact ⟨fun _ => hcycle, fun hnone => absurd hnone hnot,
    fun hnone => absurd hnone hnot, fun hnone => absurd hnone hnot⟩

omit [DecidableEq V] in
theorem Searched.of_none {start : V → Mark} {vertices : List V}
    {found : Found start} (hfound : found.cycle = false)
    (hsettled : Settled next found.marks)
    (hextends : Extends start found.marks)
    (hdone : ∀ vertex ∈ vertices, found.marks vertex = .done) :
    Searched next vertices found := by
  refine ⟨fun hcycle => ?_, fun _ => hsettled, fun _ => hextends,
    fun _ => hdone⟩
  rw [hfound] at hcycle
  cases hcycle

/-- The search from a list, when the search from a vertex is right. -/
theorem visitAll_searched {bound : Nat}
    (hvisit : ∀ (marks : V → Mark) (vertex : V), unseen marks ≤ bound →
      Settled next marks → LeadsTo next marks vertex →
        Searched next [vertex] (visit next marks vertex))
    {vertices : List V} (hbound : unseen marks ≤ bound)
    (hsettled : Settled next marks)
    (hleads : ∀ vertex ∈ vertices, LeadsTo next marks vertex) :
    Searched next vertices (visitAll next marks vertices) := by
  induction vertices generalizing marks with
  | nil =>
      rw [visitAll]
      exact .of_none rfl hsettled (Extends.refl marks)
        fun _ hvertex => absurd hvertex List.not_mem_nil
  | cons vertex rest ih =>
      rw [List.forall_mem_cons] at hleads
      have hfirst := hvisit marks vertex hbound hsettled hleads.1
      rw [visitAll]
      cases hcycle : (visit next marks vertex).cycle with
      | true =>
          simp only [if_true]
          exact .of_cycle hcycle (hfirst.cycle hcycle)
      | false =>
          simp only [Bool.false_eq_true, if_false]
          have hextends := hfirst.extends_start hcycle
          have hothers := ih
            (Nat.le_trans (visit next marks vertex).le hbound)
            (hfirst.settled hcycle) fun other hother source hactive =>
              hleads.2 other hother source (hextends.active source hactive)
          refine ⟨hothers.cycle, hothers.settled,
            fun hnone => hextends.trans (hothers.extends_start hnone), ?_⟩
          intro hnone
          rw [List.forall_mem_cons]
          refine ⟨?_, hothers.done hnone⟩
          have hdone := hfirst.done hcycle vertex List.mem_cons_self
          rw [(hothers.extends_start hnone).kept vertex
            (by rw [hdone]; exact Mark.noConfusion), hdone]

omit [Fintype V] in
theorem Settled.enter (hsettled : Settled next marks)
    (hunseen : marks vertex = .unseen) :
    Settled next (mark marks vertex .active) := by
  have hdone : ∀ other, mark marks vertex .active other = .done ↔
      marks other = .done := by
    intro other
    by_cases hsame : other = vertex
    · simp [hsame, hunseen]
    · rw [mark_of_ne hsame]
  constructor
  · intro source hsource target htarget
    rw [hdone] at hsource ⊢
    exact hsettled.closed source hsource target htarget
  · intro source hsource
    exact hsettled.loopless source ((hdone source).mp hsource)

omit [Fintype V] in
/-- Leaving the vertex again turns only unseen vertices into done ones. -/
theorem Extends.leave {after : V → Mark} (hunseen : marks vertex = .unseen)
    (hextends : Extends (mark marks vertex .active) after) :
    Extends marks (mark after vertex .done) where
  kept other hseen := by
    have hne : other ≠ vertex := by
      rintro rfl
      exact hseen hunseen
    have hsame := hextends.kept other (by rwa [mark_of_ne hne])
    rw [mark_of_ne hne, hsame, mark_of_ne hne]
  active other hactive := by
    by_cases hsame : other = vertex
    · rw [hsame, mark_self] at hactive
      cases hactive
    · rw [mark_of_ne hsame] at hactive
      have hbefore := hextends.active other hactive
      rwa [mark_of_ne hsame] at hbefore

/-- The search from a vertex to which the path leads; the induction is on the
number of vertices that are unseen. -/
theorem visit_searched (hsettled : Settled next marks)
    (hleads : LeadsTo next marks vertex) :
    Searched next [vertex] (visit next marks vertex) := by
  induction hcount : unseen marks using Nat.strong_induction_on
    generalizing marks vertex with
  | _ count ih =>
    rw [visit]
    split
    · -- the path has come back to itself
      rename_i hactive
      exact .of_cycle rfl fun hacyclic =>
        hacyclic vertex (hleads vertex hactive)
    · rename_i hdone
      refine .of_none rfl hsettled (Extends.refl marks) ?_
      simpa using hdone
    · rename_i hunseen
      have hlt : unseen (mark marks vertex .active) < unseen marks :=
        unseen_mark_lt hunseen Mark.noConfusion
      have hall := visitAll_searched
        (fun marks vertex hle hsettled hleads =>
          ih (unseen marks) (by omega) hsettled hleads rfl) (Nat.le_refl _)
        (hsettled.enter hunseen) fun target htarget => hleads.enter htarget
      dsimp only
      cases hcycle : (visitAll next (mark marks vertex .active)
          (next vertex)).cycle with
      | true =>
          simp only [if_true]
          exact .of_cycle rfl (hall.cycle hcycle)
      | false =>
          simp only [Bool.false_eq_true, if_false]
          have hextends := hall.extends_start hcycle
          have hactive : (visitAll next (mark marks vertex .active)
              (next vertex)).marks vertex = .active := by
            rw [hextends.kept vertex (by simp), mark_self]
          refine .of_none rfl ?_ (hextends.leave hunseen) ?_
          · exact (hall.settled hcycle).finish hactive (hall.done hcycle)
          · simp

/-- A search from every vertex finds a cycle just when there is one. -/
theorem hasCycle_iff {vertices : List V}
    (hvertices : ∀ vertex, vertex ∈ vertices) :
    hasCycle next vertices = true ↔ ¬ Acyclic next := by
  have hsearched : Searched next vertices
      (visitAll next (fun _ => .unseen) vertices) :=
    visitAll_searched (fun _ _ _ => visit_searched) (Nat.le_refl _)
      ⟨fun _ hdone => absurd hdone Mark.noConfusion,
        fun _ hdone => absurd hdone Mark.noConfusion⟩
      fun _ _ _ hactive => absurd hactive Mark.noConfusion
  constructor
  · exact hsearched.cycle
  · intro hcycle
    by_contra hnone
    rw [hasCycle, Bool.not_eq_true] at hnone
    exact hcycle fun vertex => (hsearched.settled hnone).loopless vertex
      (hsearched.done hnone vertex (hvertices vertex))

end Search

end DepthFirst
