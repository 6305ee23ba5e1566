/-
VideoComputer.Proofs.History — what is left of a history in a state.

A state that is made by one step after another knows of them what the steps wrote
into it. Of a value that some steps set and all others leave alone, that is what the
last of the setting steps set. Of a copy of the value that some steps take and that
is left alone in between, it is what the last setting step had set when the last copy
was taken.

* `seen_foldl` — a value after some steps.
* `seen_foldl_since` — a value that some steps put back to what it was at first.
* `beforeLast` — the part of a list before the last element of some kind.
* `copied_foldl` — a copy of a value after some steps.
* `seen_foldl_filter` — steps that leave a value alone may be left out.
-/
import Mathlib.Data.List.DropRight
import Mathlib.Data.List.Induction

namespace VideoComputer

section

variable {κ : Type} (mark : κ → Bool)

/-- What is before the last marked element of a list; nothing, if none is marked. -/
def beforeLast (cs : List κ) : List κ := (cs.rdropWhile fun c => !mark c).dropLast

@[simp] theorem beforeLast_nil : beforeLast mark [] = [] := rfl

/-- What came before the last mark is told from the end. -/
theorem beforeLast_concat (cs : List κ) (c : κ) :
    beforeLast mark (cs ++ [c]) = if mark c then cs else beforeLast mark cs := by
  rw [beforeLast, beforeLast, List.rdropWhile_concat]
  cases mark c <;> simp

end

section

variable {σ κ α : Type} {f : σ → κ → σ} {g : κ → Option α}

/-- If each step sets what is seen or leaves it alone, what is seen in the end was set
by the last step that did. -/
theorem seen?_foldl {v : σ → Option α} (hstep : ∀ s c, v (f s c) = (g c).or (v s)) (cs : List κ)
    (s : σ) : v (cs.foldl f s) = ((cs.filterMap g).getLast?).or (v s) := by
  induction cs generalizing s with
  | nil => rfl
  | cons c cs ih =>
    rw [List.foldl_cons, ih, hstep, List.filterMap_cons]
    cases g c with
    | none => rfl
    | some a =>
      rw [List.getLast?_cons]
      cases (cs.filterMap g).getLast? <;> rfl

/-- A value that calls set is the one that was set last. -/
theorem seen_foldl {v : σ → α} (hstep : ∀ s c, v (f s c) = (g c).getD (v s)) (cs : List κ) (s : σ) :
    v (cs.foldl f s) = ((cs.filterMap g).getLast?).getD (v s) := by
  have hsome := seen?_foldl (v := fun s => some (v s)) (f := f) (g := g) ?_ cs s
  · rwa [Option.or_some, Option.some_inj] at hsome
  · intro s c
    rw [hstep, Option.or_some]

/-- If some steps put it back to what it was at first, it was set since the last of
these. -/
theorem seen_foldl_since {v : σ → α} {mark : κ → Bool} {first : α}
    (hmark : ∀ s c, mark c = true → v (f s c) = first)
    (hstep : ∀ s c, mark c = false → v (f s c) = (g c).getD (v s)) (cs : List κ) {s : σ}
    (hs : v s = first) :
    v (cs.foldl f s) = (((cs.rtakeWhile fun c => !mark c).filterMap g).getLast?).getD first := by
  induction cs using List.reverseRecOn with
  | nil => simpa using hs
  | append_singleton cs c ih =>
    rw [List.foldl_concat, List.rtakeWhile_concat]
    cases hc : mark c with
    | true => simpa using hmark _ c hc
    | false =>
      rw [hstep _ c hc, ih]
      cases hg : g c <;> simp [hg]

/-- If each step takes a copy of what is seen or leaves the copy alone, the copy in the
end is what was seen before the last step that took one. -/
theorem copied_foldl {v w : σ → α} {mark : κ → Bool}
    (hstep : ∀ s c, v (f s c) = (g c).getD (v s))
    (hcopy : ∀ s c, w (f s c) = if mark c then v s else w s) (cs : List κ) {s : σ}
    (hs : w s = v s) :
    w (cs.foldl f s) = (((beforeLast mark cs).filterMap g).getLast?).getD (v s) := by
  -- the last step decides whether the copy is older than it, so steps are taken from the end
  induction cs using List.reverseRecOn with
  | nil => simpa using hs
  | append_singleton cs c ih =>
    rw [List.foldl_concat, hcopy, beforeLast_concat]
    split
    · exact seen_foldl hstep cs s
    · exact ih

end

/-- If what is seen after a step depends on what was seen before it only, the steps that
leave it alone may be left out. -/
theorem seen_foldl_filter {σ κ β : Type} {f : σ → κ → σ} {v : σ → β} {keep : κ → Bool}
    (hkeep : ∀ s s' c, v s = v s' → v (f s c) = v (f s' c))
    (hskip : ∀ s c, keep c = false → v (f s c) = v s) (cs : List κ) (s : σ) :
    v ((cs.filter keep).foldl f s) = v (cs.foldl f s) := by
  induction cs using List.reverseRecOn with
  | nil => rfl
  | append_singleton cs c ih =>
    rw [List.filter_append, List.foldl_append, List.foldl_concat]
    cases hc : keep c with
    | true => simpa [hc] using hkeep _ _ c ih
    | false => simpa [hc, hskip _ c hc] using ih

end VideoComputer
