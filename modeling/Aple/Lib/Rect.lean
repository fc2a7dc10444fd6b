/-
**Rectangles of pixels.**

* `Rect`, `Rect.pixels` — four integers, and the pixels they enclose.
* `RectOps` — a bounding rectangle, an intersection and a test for emptiness; `RectLaws` — what they
  do on rectangles of non-negative size.
* `plainOps`, **`plainOps_laws`** — operations that meet the laws.
-/

import Mathlib.Data.Set.Basic
import Mathlib.Data.Int.Order.Basic

namespace Aple.Lib

/-! ### Rectangles -/

/-- Left, top, right and bottom; right and bottom are not enclosed. -/
structure Rect where
  left : ℤ
  top : ℤ
  right : ℤ
  bottom : ℤ
deriving DecidableEq, Repr

namespace Rect

/-- The pixels of a rectangle. -/
def pixels (r : Rect) : Set (ℤ × ℤ) :=
  {p | r.left ≤ p.1 ∧ p.1 < r.right ∧ r.top ≤ p.2 ∧ p.2 < r.bottom}

/-- A rectangle of non-negative width and height. -/
structure Valid (r : Rect) : Prop where
  width : r.left ≤ r.right
  height : r.top ≤ r.bottom

instance (r : Rect) : Decidable r.Valid :=
  decidable_of_iff (r.left ≤ r.right ∧ r.top ≤ r.bottom) ⟨fun h => ⟨h.1, h.2⟩, fun h => ⟨h.1, h.2⟩⟩

theorem mem_pixels {r : Rect} {p : ℤ × ℤ} :
    p ∈ r.pixels ↔ r.left ≤ p.1 ∧ p.1 < r.right ∧ r.top ≤ p.2 ∧ p.2 < r.bottom := Iff.rfl

/-- A rectangle of non-negative size has a pixel unless it has no width or no height. -/
theorem pixels_nonempty_iff {r : Rect} :
    r.pixels.Nonempty ↔ r.left < r.right ∧ r.top < r.bottom := by
  constructor
  · rintro ⟨p, inside⟩
    rw [mem_pixels] at inside
    omega
  · rintro ⟨wide, high⟩
    exact ⟨(r.left, r.top), le_rfl, wide, le_rfl, high⟩

end Rect

/-! ### Operations -/

/-- Operations on rectangles. The intersection says whether there is one. -/
structure RectOps where
  getBoundRect : Rect → Rect → Rect
  intersectRect : Rect → Rect → Bool × Rect
  isRectEmpty : Rect → Bool

/-- What the operations do on rectangles of non-negative size. -/
structure RectLaws (ops : RectOps) : Prop where
  bound_valid : ∀ {a b}, a.Valid → b.Valid → (ops.getBoundRect a b).Valid
  bound_left : ∀ {a b}, a.Valid → b.Valid → a.pixels ⊆ (ops.getBoundRect a b).pixels
  bound_right : ∀ {a b}, a.Valid → b.Valid → b.pixels ⊆ (ops.getBoundRect a b).pixels
  intersect_hits : ∀ {a b}, a.Valid → b.Valid →
    ((ops.intersectRect a b).1 = true ↔ (a.pixels ∩ b.pixels).Nonempty)
  intersect_valid : ∀ {a b}, a.Valid → b.Valid → (ops.intersectRect a b).1 = true →
    (ops.intersectRect a b).2.Valid
  intersect_pixels : ∀ {a b}, a.Valid → b.Valid → (ops.intersectRect a b).1 = true →
    (ops.intersectRect a b).2.pixels = a.pixels ∩ b.pixels
  empty_iff : ∀ {a}, a.Valid → (ops.isRectEmpty a = true ↔ ¬ a.pixels.Nonempty)

/-- The operations by coordinates. -/
def plainOps : RectOps where
  getBoundRect a b :=
    ⟨min a.left b.left, min a.top b.top, max a.right b.right, max a.bottom b.bottom⟩
  intersectRect a b :=
    let r : Rect :=
      ⟨max a.left b.left, max a.top b.top, min a.right b.right, min a.bottom b.bottom⟩
    (decide (r.left < r.right ∧ r.top < r.bottom), r)
  isRectEmpty a := decide (a.left = a.right ∨ a.top = a.bottom)

/-- The intersection by coordinates has the common pixels. -/
theorem plainOps_intersect (a b : Rect) :
    (plainOps.intersectRect a b).2.pixels = a.pixels ∩ b.pixels := by
  ext p
  simp only [plainOps, Rect.mem_pixels, Set.mem_inter_iff]
  omega

theorem plainOps_laws : RectLaws plainOps where
  bound_valid valid valid' := by
    obtain ⟨wide, high⟩ := valid
    refine ⟨?_, ?_⟩
    · exact (min_le_left _ _).trans (wide.trans (le_max_left _ _))
    · exact (min_le_left _ _).trans (high.trans (le_max_left _ _))
  bound_left _ _ := by
    intro p inside
    simp only [plainOps, Rect.mem_pixels] at inside ⊢
    omega
  bound_right _ _ := by
    intro p inside
    simp only [plainOps, Rect.mem_pixels] at inside ⊢
    omega
  intersect_hits {a b} _ _ := by
    rw [← plainOps_intersect, Rect.pixels_nonempty_iff]
    exact decide_eq_true_iff
  intersect_valid _ _ hits := by
    obtain ⟨wide, high⟩ := of_decide_eq_true hits
    exact ⟨wide.le, high.le⟩
  intersect_pixels {a b} _ _ _ := plainOps_intersect a b
  empty_iff {a} valid := by
    obtain ⟨wide, high⟩ := valid
    rw [Rect.pixels_nonempty_iff]
    simp only [plainOps, decide_eq_true_eq]
    omega

end Aple.Lib
