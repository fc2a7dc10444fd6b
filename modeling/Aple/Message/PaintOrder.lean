/-
**The order in which the repaint search looks at the windows.**

* `PaintWin.candidates`, `HostWin.candidates` — the windows and controls whose invalid regions count,
  in the order of the two recursions.
* `HostTree` — a hosting tree whose windows are at addresses, so that no handle is null; `desktopTree`
  is one.
* `firstInvalid`, `firstInvalid_append` — the first candidate with an invalid region, and how the
  searches of two lists compose.
* **`msgCheckHostedTree_first`** — the search returns the first candidate with an invalid region, and
  a null handle exactly when there is none.
-/

import Aple.Message.HostTree

namespace Aple.Message

/-! ### The candidates -/

def PaintWin.invRgn : PaintWin → Bool
  | node _ _ invRgn _ => invRgn

mutual

/-- A window and its controls, parents before children; a virtual window gives none. -/
def PaintWin.candidates : PaintWin → List PaintWin
  | .node hwnd winType invRgn children =>
    if winType = typeVirtWin then []
    else .node hwnd winType invRgn children :: childCandidates children

def childCandidates : List PaintWin → List PaintWin
  | [] => []
  | pCtrl :: next => pCtrl.candidates ++ childCandidates next

end

mutual

/-- A window with its controls, then the windows it hosts; the desktop itself is left out. -/
def HostWin.candidates (dskWin : Hwnd) : HostWin → List PaintWin
  | .node win hosted =>
    (if win.hwnd = dskWin then [] else win.candidates) ++ hostedCandidates dskWin hosted

def hostedCandidates (dskWin : Hwnd) : List HostWin → List PaintWin
  | [] => []
  | pHosted :: next => pHosted.candidates dskWin ++ hostedCandidates dskWin next

end

/-! ### Handles are addresses -/

mutual

/-- No window of the tree has a null handle. -/
def PaintWin.Real : PaintWin → Prop
  | .node hwnd _ _ children => hwnd ≠ hwndNull ∧ RealChildren children

def RealChildren : List PaintWin → Prop
  | [] => True
  | pCtrl :: next => pCtrl.Real ∧ RealChildren next

end

mutual

def HostWin.Real : HostWin → Prop
  | .node win hosted => win.Real ∧ RealHosted hosted

def RealHosted : List HostWin → Prop
  | [] => True
  | pHosted :: next => pHosted.Real ∧ RealHosted next

end

/-- A hosting tree as it is in memory: a handle is the address of its window. -/
structure HostTree where
  root : HostWin
  real : root.Real

/-- The handles of some candidates are not null. -/
def RealHandles (candidates : List PaintWin) : Prop := ∀ win ∈ candidates, win.hwnd ≠ hwndNull

theorem RealHandles.append {first second : List PaintWin} (real : RealHandles first)
    (real' : RealHandles second) : RealHandles (first ++ second) := fun win member =>
  (List.mem_append.mp member).elim (real win) (real' win)

mutual

theorem PaintWin.Real.candidates {win : PaintWin} (real : win.Real) : RealHandles win.candidates := by
  match win with
  | .node hwnd winType invRgn children =>
    rw [PaintWin.candidates]
    split
    · exact fun _ member => absurd member List.not_mem_nil
    · intro other member
      rcases List.mem_cons.mp member with rfl | below
      · exact real.1
      · exact realChildren_candidates children real.2 other below

theorem realChildren_candidates (children : List PaintWin) (real : RealChildren children) :
    RealHandles (childCandidates children) := by
  match children with
  | [] => exact fun _ member => absurd member List.not_mem_nil
  | pCtrl :: next =>
    exact (PaintWin.Real.candidates real.1).append (realChildren_candidates next real.2)

end

mutual

theorem HostWin.Real.candidates (dskWin : Hwnd) {tree : HostWin} (real : tree.Real) :
    RealHandles (tree.candidates dskWin) := by
  match tree with
  | .node win hosted =>
    refine RealHandles.append ?_ (realHosted_candidates dskWin hosted real.2)
    split
    · exact fun _ member => absurd member List.not_mem_nil
    · exact real.1.candidates

theorem realHosted_candidates (dskWin : Hwnd) (hosted : List HostWin) (real : RealHosted hosted) :
    RealHandles (hostedCandidates dskWin hosted) := by
  match hosted with
  | [] => exact fun _ member => absurd member List.not_mem_nil
  | pHosted :: next =>
    exact (HostWin.Real.candidates dskWin real.1).append (realHosted_candidates dskWin next real.2)

end

/-! ### The first one -/

/-- The handle of the first candidate with an invalid region, or null. -/
def firstInvalid (candidates : List PaintWin) : Hwnd :=
  ((candidates.find? PaintWin.invRgn).map PaintWin.hwnd).getD hwndNull

theorem firstInvalid_eq_null {candidates : List PaintWin} (real : RealHandles candidates) :
    firstInvalid candidates = hwndNull ↔ ∀ win ∈ candidates, win.invRgn = false := by
  unfold firstInvalid
  cases found : candidates.find? PaintWin.invRgn with
  | none =>
    refine iff_of_true rfl fun win member => ?_
    simpa using List.find?_eq_none.mp found win member
  | some win =>
    have member := List.mem_of_find?_eq_some found
    have invalid : win.invRgn = true := List.find?_some found
    refine iff_of_false (real win member) fun valid => ?_
    rw [valid win member] at invalid
    cases invalid

/-- **Two searches**, one after the other. -/
theorem firstInvalid_append {first : List PaintWin} (real : RealHandles first)
    (second : List PaintWin) : firstInvalid (first ++ second) =
      if firstInvalid first ≠ hwndNull then firstInvalid first else firstInvalid second := by
  unfold firstInvalid
  rw [List.find?_append]
  cases found : first.find? PaintWin.invRgn with
  | none => rfl
  | some win => exact (if_pos (real win (List.mem_of_find?_eq_some found))).symm

theorem firstInvalid_split {before after : List PaintWin} {win : PaintWin}
    (valid : ∀ other ∈ before, other.invRgn = false) (invalid : win.invRgn = true) :
    firstInvalid (before ++ win :: after) = win.hwnd := by
  have none_before : before.find? PaintWin.invRgn = none :=
    List.find?_eq_none.mpr fun other member => by simp [valid other member]
  unfold firstInvalid
  rw [List.find?_append, none_before, Option.none_or, List.find?_cons_of_pos invalid]
  rfl

/-! ### The search -/

mutual

/-- `kernel_CheckInvalidRegion` finds the first candidate of the window. -/
theorem kernelCheckInvalidRegion_eq {win : PaintWin} (real : win.Real) :
    kernelCheckInvalidRegion win = firstInvalid win.candidates := by
  match win with
  | .node hwnd winType invRgn children =>
    rw [kernelCheckInvalidRegion, PaintWin.candidates]
    by_cases virtual : winType = typeVirtWin
    · rw [if_pos virtual, if_pos virtual]
      rfl
    · rw [if_neg virtual, if_neg virtual]
      cases invRgn with
      | true => rfl
      | false => exact checkChildren_eq children real.2

theorem checkChildren_eq (children : List PaintWin) (real : RealChildren children) :
    checkChildren children = firstInvalid (childCandidates children) := by
  match children with
  | [] => rfl
  | pCtrl :: next =>
    rw [checkChildren, childCandidates, firstInvalid_append real.1.candidates,
      kernelCheckInvalidRegion_eq real.1, checkChildren_eq next real.2]

end

mutual

/-- **The search** finds the first candidate. -/
theorem msgCheckHostedTree_eq (dskWin : Hwnd) {tree : HostWin} (real : tree.Real) :
    msgCheckHostedTree dskWin tree = firstInvalid (tree.candidates dskWin) := by
  match tree with
  | .node win hosted =>
    rw [msgCheckHostedTree, HostWin.candidates, kernelCheckInvalidRegion_eq real.1,
      checkHosted_eq dskWin hosted real.2]
    by_cases desktop : win.hwnd = dskWin
    · rw [if_neg fun both => both.1 desktop, if_pos desktop, List.nil_append]
    · rw [if_neg desktop, firstInvalid_append real.1.candidates]
      exact if_congr (and_iff_right desktop) rfl rfl

theorem checkHosted_eq (dskWin : Hwnd) (hosted : List HostWin) (real : RealHosted hosted) :
    checkHosted dskWin hosted = firstInvalid (hostedCandidates dskWin hosted) := by
  match hosted with
  | [] => rfl
  | pHosted :: next =>
    rw [checkHosted, hostedCandidates, firstInvalid_append (real.1.candidates dskWin),
      msgCheckHostedTree_eq dskWin real.1, checkHosted_eq dskWin next real.2]

end

/-- **The repaint search** returns a null handle if and only if no candidate has an invalid region,
and otherwise the first candidate that has one. -/
theorem msgCheckHostedTree_first (dskWin : Hwnd) (tree : HostTree) :
    (msgCheckHostedTree dskWin tree.root = hwndNull ↔
      ∀ win ∈ tree.root.candidates dskWin, win.invRgn = false) ∧
    ∀ before win after, tree.root.candidates dskWin = before ++ win :: after →
      (∀ other ∈ before, other.invRgn = false) → win.invRgn = true →
      msgCheckHostedTree dskWin tree.root = win.hwnd := by
  rw [msgCheckHostedTree_eq dskWin tree.real]
  refine ⟨firstInvalid_eq_null (tree.real.candidates dskWin), ?_⟩
  intro before win after split valid invalid
  rw [split]
  exact firstInvalid_split valid invalid

/-- The desktop 1, to be painted itself, hosts the virtual window 2, the main window 4 with a tree of
controls and its hosted window 8. -/
def desktopTree : HostTree where
  root :=
    .node (.node 1 typeMainWin true [])
      [.node (.node 2 typeVirtWin true [.node 3 typeControl true []]) [],
        .node (.node 4 typeMainWin false
          [.node 5 typeControl false [.node 6 typeControl false []], .node 7 typeControl true []])
          [.node (.node 8 typeMainWin true []) []]]
  real := by simp [HostWin.Real, RealHosted, PaintWin.Real, RealChildren, hwndNull]

/-- The control 7 is the first one to be painted. -/
theorem msgCheckHostedTree_first_control : msgCheckHostedTree 1 desktopTree.root = 7 := by
  refine (msgCheckHostedTree_first 1 desktopTree).2
    [.node 4 typeMainWin false
        [.node 5 typeControl false [.node 6 typeControl false []], .node 7 typeControl true []],
      .node 5 typeControl false [.node 6 typeControl false []], .node 6 typeControl false []]
    (.node 7 typeControl true []) [.node 8 typeMainWin true []] ?_ ?_ rfl
  · simp [desktopTree, HostWin.candidates, hostedCandidates, PaintWin.candidates, childCandidates,
      PaintWin.hwnd, typeMainWin, typeControl, typeVirtWin]
  · simp [PaintWin.invRgn]

end Aple.Message
