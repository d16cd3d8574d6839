import Mathlib.Data.List.Basic

namespace MusicRemote.Foundation.Extraction

variable {β φ ε : Type*}

/-- One call on a buffer: an error, nothing yet, or one item with what is left. -/
abbrev Extract (β φ ε : Type*) := List β → Except ε (Option (φ × List β))

/-- An extractor may be called again with more input behind the old one: what
it has decided stays decided, and an item uses up input. -/
structure Incremental (extract : Extract β φ ε) : Prop where
  nil : extract [] = .ok none
  shrinks : ∀ {b f r}, extract b = .ok (some (f, r)) → r.length < b.length
  item_append : ∀ {b f r} x, extract b = .ok (some (f, r)) →
    extract (b ++ x) = .ok (some (f, r ++ x))
  error_append : ∀ {b e} x, extract b = .error e → extract (b ++ x) = .error e

/-- Extract from `b` for as long as there are items. The verdict is an error or,
when more input is awaited, `ok`; the last argument is the input left. -/
inductive Drains (extract : Extract β φ ε) :
    List β → List φ → Except ε Unit → List β → Prop
  | wait {b : List β} : extract b = .ok none → Drains extract b [] (.ok ()) b
  | fail {b : List β} {e : ε} : extract b = .error e → Drains extract b [] (.error e) b
  | item {b r r' : List β} {f : φ} {fs : List φ} {v : Except ε Unit} :
      extract b = .ok (some (f, r)) → Drains extract r fs v r' → Drains extract b (f :: fs) v r'

variable {extract : Extract β φ ε} {b r r' x : List β} {fs gs : List φ}
  {v v' : Except ε Unit} {e : ε}

theorem Drains.deterministic (h : Drains extract b fs v r) (h' : Drains extract b gs v' r') :
    fs = gs ∧ v = v' ∧ r = r' := by
  induction h generalizing gs with
  | wait hb => cases h' <;> simp_all
  | fail hb => cases h' <;> simp_all
  | item hb _ ih =>
    cases h' with
    | wait hb' => simp_all
    | fail hb' => simp_all
    | item hb' h' =>
      simp only [hb, Except.ok.injEq, Option.some.injEq, Prod.mk.injEq] at hb'
      obtain ⟨rfl, rfl⟩ := hb'
      obtain ⟨rfl, rfl, rfl⟩ := ih h'
      exact ⟨rfl, rfl, rfl⟩

theorem Drains.rest_waits (h : Drains extract b fs v r) (hv : v = .ok ()) :
    extract r = .ok none := by
  induction h with
  | wait hb => exact hb
  | fail hb => cases hv
  | item _ _ ih => exact ih hv

variable (he : Incremental extract)

include he

theorem Incremental.drains (b : List β) : ∃ fs v r, Drains extract b fs v r := by
  induction hn : b.length using Nat.strongRecOn generalizing b with
  | _ n ih =>
    rcases hb : extract b with e | _ | ⟨f, r⟩
    · exact ⟨[], .error e, b, .fail hb⟩
    · exact ⟨[], .ok (), b, .wait hb⟩
    · obtain ⟨fs, v, r', h⟩ := ih r.length (hn ▸ he.shrinks hb) r rfl
      exact ⟨f :: fs, v, r', .item hb h⟩

/-- The start of an item that takes up its whole input is not an item, nor an error. -/
theorem Incremental.waits_of_cut {f : φ} (h : extract (b ++ x) = .ok (some (f, [])))
    (hx : x ≠ []) : extract b = .ok none := by
  rcases hb : extract b with e | _ | ⟨g, r⟩
  · rw [he.error_append x hb] at h
    cases h
  · rfl
  · rw [he.item_append x hb, Except.ok.injEq, Option.some.injEq, Prod.mk.injEq] at h
    exact absurd (List.append_eq_nil_iff.1 h.2).2 hx

/-- What the start of an input gives is what the whole input gives first. -/
theorem Drains.next (h : Drains extract (b ++ x) fs (.ok ()) r) :
    extract b = .ok none ∨ ∃ f r' gs, extract b = .ok (some (f, r')) ∧ fs = f :: gs ∧
      Drains extract (r' ++ x) gs (.ok ()) r := by
  rcases hb : extract b with e | _ | ⟨f, r'⟩
  · have hd := Drains.fail (he.error_append x hb)
    cases (h.deterministic hd).2.1
  · exact .inl rfl
  · have hx := he.item_append x hb
    cases h with
    | wait hw => cases hx.symm.trans hw
    | item hi hd =>
      rw [hx, Except.ok.injEq, Option.some.injEq, Prod.mk.injEq] at hi
      obtain ⟨rfl, rfl⟩ := hi
      exact .inr ⟨_, _, _, rfl, rfl, hd⟩

theorem Drains.rest_length (h : Drains extract b fs v r) : r.length ≤ b.length := by
  induction h with
  | wait _ => exact Nat.le_refl _
  | fail _ => exact Nat.le_refl _
  | item hb _ ih => exact Nat.le_trans ih (Nat.le_of_lt (he.shrinks hb))

theorem Drains.append_wait (h : Drains extract b fs v r) (hv : v = .ok ())
    (h' : Drains extract (r ++ x) gs v' r') : Drains extract (b ++ x) (fs ++ gs) v' r' := by
  induction h with
  | wait _ => exact h'
  | fail _ => cases hv
  | item hb _ ih => exact .item (he.item_append x hb) (ih hv h')

theorem Drains.append_fail (h : Drains extract b fs v r) (hv : v = .error e) (x : List β) :
    Drains extract (b ++ x) fs v (r ++ x) := by
  induction h with
  | wait _ => cases hv
  | fail hb => exact .fail (he.error_append x hb)
  | item hb _ ih => exact .item (he.item_append x hb) (ih hv)

omit he

/-- The same input cut into reads: each read is put behind what the last one
left and drained, and an error stops the reading. The last argument lists the
reads that were not taken. -/
inductive Reads (extract : Extract β φ ε) :
    List β → List (List β) → List φ → Except ε Unit → List β → List (List β) → Prop
  | nil (b : List β) : Reads extract b [] [] (.ok ()) b []
  | more {b c r r' : List β} {cs us : List (List β)} {fs gs : List φ} {v : Except ε Unit} :
      Drains extract (b ++ c) fs (.ok ()) r → Reads extract r cs gs v r' us →
      Reads extract b (c :: cs) (fs ++ gs) v r' us
  | stop {b c r : List β} {cs : List (List β)} {fs : List φ} {e : ε} :
      Drains extract (b ++ c) fs (.error e) r → Reads extract b (c :: cs) fs (.error e) r cs

theorem Reads.unread_nil {cs us : List (List β)} (h : Reads extract b cs fs v r us)
    (hv : v = .ok ()) : us = [] := by
  induction h with
  | nil _ => rfl
  | more _ _ ih => exact ih hv
  | stop _ => cases hv

/-- Where the input is cut does not matter. -/
theorem Reads.drains_flatten (he : Incremental extract) {cs us : List (List β)}
    (h : Reads extract b cs fs v r us) (hb : extract b = .ok none) :
    Drains extract (b ++ cs.flatten) fs v (r ++ us.flatten) := by
  induction h with
  | nil b => simpa using Drains.wait hb
  | @more b c r r' cs us fs gs v hd _ ih =>
    have hr := hd.rest_waits rfl
    simpa [List.append_assoc] using Drains.append_wait he hd rfl (ih hr)
  | stop hd => simpa [List.append_assoc] using hd.append_fail he rfl _

inductive Takes (extract : Extract β φ ε) : List β → List φ → List β → Prop
  | nil (b : List β) : Takes extract b [] b
  | item {b r r' : List β} {f : φ} {fs : List φ} :
      extract b = .ok (some (f, r)) → Takes extract r fs r' → Takes extract b (f :: fs) r'

theorem Takes.concat {f : φ} (h : Takes extract b fs r) (hr : extract r = .ok (some (f, r'))) :
    Takes extract b (fs ++ [f]) r' := by
  induction h with
  | nil b => exact .item hr (.nil _)
  | item hb _ ih => exact .item hb (ih hr)

theorem Takes.append (he : Incremental extract) (h : Takes extract b fs r) (x : List β) :
    Takes extract (b ++ x) fs (r ++ x) := by
  induction h with
  | nil b => exact .nil _
  | item hb _ ih => exact .item (he.item_append x hb) ih

theorem Takes.drains (h : Takes extract b fs r) (hr : extract r = .ok none) :
    Drains extract b fs (.ok ()) r := by
  induction h with
  | nil b => exact .wait hr
  | item hb _ ih => exact .item hb (ih hr)

end MusicRemote.Foundation.Extraction
