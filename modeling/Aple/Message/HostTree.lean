/-
**The windows of a hosting tree that have to be painted.**

* `PaintWin.Needs`, `HostWin.Needs` — a window that is neither virtual nor the desktop, or a control
  of such a window, with an invalid region.
* **`msgCheckHostedTree_sound`**, **`msgCheckHostedTree_complete`** — the search returns one of
  them, and a null handle only when there is none.
* `PaintWin.mark`, `HostWin.mark` — a window gets an invalid region or loses it; `needs_of_mark`
  says that no other window needs painting for it.
-/

import Aple.Message.Data

namespace Aple.Message

/-! ### What needs painting -/

/-- The handles of the invalid windows in the tree of a window and its controls. -/
inductive PaintWin.Needs : PaintWin → Hwnd → Prop
  | self {hwnd : Hwnd} {winType : BitVec 8} {children : List PaintWin} : winType ≠ typeVirtWin →
      Needs (.node hwnd winType true children) hwnd
  | child {hwnd needs : Hwnd} {winType : BitVec 8} {invRgn : Bool} {children : List PaintWin}
      {pCtrl : PaintWin} : winType ≠ typeVirtWin → pCtrl ∈ children → Needs pCtrl needs →
      Needs (.node hwnd winType invRgn children) needs

/-- The handles of the invalid windows in a hosting tree; the desktop with its controls is left
out. -/
inductive HostWin.Needs (dskWin : Hwnd) : HostWin → Hwnd → Prop
  | window {win : PaintWin} {hosted : List HostWin} {needs : Hwnd} : win.hwnd ≠ dskWin →
      win.Needs needs → Needs dskWin (.node win hosted) needs
  | hosted {win : PaintWin} {hosted : List HostWin} {pHosted : HostWin} {needs : Hwnd} :
      pHosted ∈ hosted → Needs dskWin pHosted needs → Needs dskWin (.node win hosted) needs

/-! ### The search -/

theorem checkChildren_ne {pCtrl : PaintWin} {children : List PaintWin} (member : pCtrl ∈ children)
    (found : kernelCheckInvalidRegion pCtrl ≠ hwndNull) : checkChildren children ≠ hwndNull := by
  induction children with
  | nil => cases member
  | cons first rest ih =>
    rw [checkChildren]
    split
    · assumption
    · rename_i nothing
      rcases List.mem_cons.mp member with rfl | later
      · exact absurd found nothing
      · exact ih later

theorem checkHosted_ne {dskWin : Hwnd} {pHosted : HostWin} {hosted : List HostWin}
    (member : pHosted ∈ hosted) (found : msgCheckHostedTree dskWin pHosted ≠ hwndNull) :
    checkHosted dskWin hosted ≠ hwndNull := by
  induction hosted with
  | nil => cases member
  | cons first rest ih =>
    rw [checkHosted]
    split
    · assumption
    · rename_i nothing
      rcases List.mem_cons.mp member with rfl | later
      · exact absurd found nothing
      · exact ih later

mutual

/-- What `kernel_CheckInvalidRegion` returns needs painting. -/
theorem kernelCheckInvalidRegion_sound (win : PaintWin)
    (found : kernelCheckInvalidRegion win ≠ hwndNull) :
    win.Needs (kernelCheckInvalidRegion win) := by
  match win with
  | .node hwnd winType invRgn children =>
    rw [kernelCheckInvalidRegion] at found ⊢
    by_cases virtual : winType = typeVirtWin
    · rw [if_pos virtual] at found
      exact absurd rfl found
    · rw [if_neg virtual] at found ⊢
      cases invRgn with
      | true => exact .self virtual
      | false =>
        obtain ⟨pCtrl, member, needs⟩ := checkChildren_sound children found
        exact .child virtual member needs

theorem checkChildren_sound (children : List PaintWin) (found : checkChildren children ≠ hwndNull) :
    ∃ pCtrl ∈ children, pCtrl.Needs (checkChildren children) := by
  match children with
  | [] => exact absurd rfl found
  | pCtrl :: next =>
    rw [checkChildren] at found ⊢
    by_cases here : kernelCheckInvalidRegion pCtrl ≠ hwndNull
    · rw [if_pos here]
      exact ⟨pCtrl, List.mem_cons_self, kernelCheckInvalidRegion_sound pCtrl here⟩
    · rw [if_neg here] at found ⊢
      obtain ⟨other, member, needs⟩ := checkChildren_sound next found
      exact ⟨other, List.mem_cons_of_mem _ member, needs⟩

end

mutual

/-- **What the search returns needs painting.** -/
theorem msgCheckHostedTree_sound (dskWin : Hwnd) (tree : HostWin)
    (found : msgCheckHostedTree dskWin tree ≠ hwndNull) :
    tree.Needs dskWin (msgCheckHostedTree dskWin tree) := by
  match tree with
  | .node win hosted =>
    rw [msgCheckHostedTree] at found ⊢
    by_cases here : win.hwnd ≠ dskWin ∧ kernelCheckInvalidRegion win ≠ hwndNull
    · rw [if_pos here]
      exact .window here.1 (kernelCheckInvalidRegion_sound win here.2)
    · rw [if_neg here] at found ⊢
      obtain ⟨pHosted, member, needs⟩ := checkHosted_sound dskWin hosted found
      exact .hosted member needs

theorem checkHosted_sound (dskWin : Hwnd) (hosted : List HostWin)
    (found : checkHosted dskWin hosted ≠ hwndNull) :
    ∃ pHosted ∈ hosted, pHosted.Needs dskWin (checkHosted dskWin hosted) := by
  match hosted with
  | [] => exact absurd rfl found
  | pHosted :: next =>
    rw [checkHosted] at found ⊢
    by_cases here : msgCheckHostedTree dskWin pHosted ≠ hwndNull
    · rw [if_pos here]
      exact ⟨pHosted, List.mem_cons_self, msgCheckHostedTree_sound dskWin pHosted here⟩
    · rw [if_neg here] at found ⊢
      obtain ⟨other, member, needs⟩ := checkHosted_sound dskWin next found
      exact ⟨other, List.mem_cons_of_mem _ member, needs⟩

end

/-- `kernel_CheckInvalidRegion` misses nothing; a window's handle is its address, so not null. -/
theorem kernelCheckInvalidRegion_complete {win : PaintWin} {needs : Hwnd}
    (invalid : win.Needs needs)
    (real : ∀ hwnd, win.Needs hwnd → hwnd ≠ hwndNull) :
    kernelCheckInvalidRegion win ≠ hwndNull := by
  induction invalid with
  | self notVirtual =>
    rw [kernelCheckInvalidRegion, if_neg notVirtual, if_pos rfl]
    exact real _ (.self notVirtual)
  | @child hwnd needs winType invRgn children pCtrl notVirtual member _ ih =>
    rw [kernelCheckInvalidRegion, if_neg notVirtual]
    cases invRgn with
    | true => exact real hwnd (.self notVirtual)
    | false => exact checkChildren_ne member (ih fun hwnd below => real hwnd (.child notVirtual member below))

/-- **The search misses nothing.** -/
theorem msgCheckHostedTree_complete {dskWin needs : Hwnd} {tree : HostWin}
    (invalid : tree.Needs dskWin needs) (real : ∀ hwnd, tree.Needs dskWin hwnd → hwnd ≠ hwndNull) :
    msgCheckHostedTree dskWin tree ≠ hwndNull := by
  induction invalid with
  | window notDesktop below =>
    have found := kernelCheckInvalidRegion_complete below fun hwnd within => real hwnd (.window notDesktop within)
    rw [msgCheckHostedTree, if_pos ⟨notDesktop, found⟩]
    exact found
  | hosted member _ ih =>
    rw [msgCheckHostedTree]
    split
    · rename_i here
      exact here.2
    · exact checkHosted_ne member (ih fun hwnd below => real hwnd (.hosted member below))

/-! ### Invalid regions change -/

mutual

/-- The invalid region of a window becomes empty, or not. -/
def PaintWin.mark (hWnd : Hwnd) (invalid : Bool) : PaintWin → PaintWin
  | .node hwnd winType invRgn children =>
    .node hwnd winType (if hwnd = hWnd then invalid else invRgn) (markChildren hWnd invalid children)

def markChildren (hWnd : Hwnd) (invalid : Bool) : List PaintWin → List PaintWin
  | [] => []
  | pCtrl :: next => pCtrl.mark hWnd invalid :: markChildren hWnd invalid next

end

mutual

/-- The same in a hosting tree. -/
def HostWin.mark (hWnd : Hwnd) (invalid : Bool) : HostWin → HostWin
  | .node win hosted => .node (win.mark hWnd invalid) (markHosted hWnd invalid hosted)

def markHosted (hWnd : Hwnd) (invalid : Bool) : List HostWin → List HostWin
  | [] => []
  | pHosted :: next => pHosted.mark hWnd invalid :: markHosted hWnd invalid next

end

section Mark

variable {hWnd : Hwnd} {invalid : Bool}

theorem markChildren_eq (children : List PaintWin) :
    markChildren hWnd invalid children = children.map (PaintWin.mark hWnd invalid) := by
  induction children with
  | nil => rfl
  | cons pCtrl next ih => rw [markChildren, ih, List.map_cons]

theorem markHosted_eq (hosted : List HostWin) :
    markHosted hWnd invalid hosted = hosted.map (HostWin.mark hWnd invalid) := by
  induction hosted with
  | nil => rfl
  | cons pHosted next ih => rw [markHosted, ih, List.map_cons]

theorem PaintWin.hwnd_mark (win : PaintWin) : (win.mark hWnd invalid).hwnd = win.hwnd := by
  cases win
  rfl

/-- What needs painting in a window afterwards needed it before, or is the window marked. -/
theorem PaintWin.needs_of_mark {win : PaintWin} {needs : Hwnd}
    (after : (win.mark hWnd invalid).Needs needs) :
    win.Needs needs ∨ invalid = true ∧ needs = hWnd := by
  generalize marked : win.mark hWnd invalid = win' at after
  induction after generalizing win with
  | @self hwnd winType children notVirtual =>
    obtain ⟨hwnd', winType', invRgn, children'⟩ := win
    rw [PaintWin.mark] at marked
    obtain ⟨rfl, rfl, region, -⟩ := PaintWin.node.inj marked
    by_cases same : hwnd' = hWnd
    · rw [if_pos same] at region
      exact .inr ⟨region, same⟩
    · rw [if_neg same] at region
      rw [region]
      exact .inl (.self notVirtual)
  | @child hwnd needs winType invRgn children pCtrl notVirtual member _ ih =>
    obtain ⟨hwnd', winType', invRgn', children'⟩ := win
    rw [PaintWin.mark] at marked
    obtain ⟨rfl, rfl, -, rfl⟩ := PaintWin.node.inj marked
    rw [markChildren_eq] at member
    obtain ⟨pCtrl', member', same⟩ := List.mem_map.mp member
    rcases ih same with before | marked
    · exact .inl (.child notVirtual member' before)
    · exact .inr marked

/-- **What needs painting afterwards** needed it before, or is the window marked. -/
theorem HostWin.needs_of_mark {dskWin needs : Hwnd} {tree : HostWin}
    (after : (tree.mark hWnd invalid).Needs dskWin needs) :
    tree.Needs dskWin needs ∨ invalid = true ∧ needs = hWnd := by
  generalize marked : tree.mark hWnd invalid = tree' at after
  induction after generalizing tree with
  | @window win hosted needs notDesktop below =>
    obtain ⟨win', hosted'⟩ := tree
    rw [HostWin.mark] at marked
    obtain ⟨rfl, -⟩ := HostWin.node.inj marked
    rw [PaintWin.hwnd_mark] at notDesktop
    rcases PaintWin.needs_of_mark below with before | marked
    · exact .inl (.window notDesktop before)
    · exact .inr marked
  | @hosted win hosted pHosted needs member _ ih =>
    obtain ⟨win', hosted'⟩ := tree
    rw [HostWin.mark] at marked
    obtain ⟨-, rfl⟩ := HostWin.node.inj marked
    rw [markHosted_eq] at member
    obtain ⟨pHosted', member', same⟩ := List.mem_map.mp member
    rcases ih same with before | marked
    · exact .inl (.hosted member' before)
    · exact .inr marked

end Mark

end Aple.Message
