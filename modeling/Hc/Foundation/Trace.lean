import Mathlib.Tactic.Common

/-!
# Computations that record what they do

A traced computation has a value and the list of its events. What is said of it is a
postcondition of the value together with a predicate that every event meets.
-/

namespace Hc

/-- A value, and the events on the way to it. -/
structure Traced (ε α : Type) where
  value : α
  events : List ε

namespace Traced

variable {ε α β : Type}

instance : Monad (Traced ε) where
  pure a := ⟨a, []⟩
  bind m f := ⟨(f m.value).value, m.events ++ (f m.value).events⟩

/-- A value with one event. -/
def record (event : ε) (a : α) : Traced ε α := ⟨a, [event]⟩

@[simp] theorem value_pure (a : α) : (pure a : Traced ε α).value = a := rfl

@[simp] theorem value_bind (m : Traced ε α) (f : α → Traced ε β) :
    (m >>= f).value = (f m.value).value := by
  cases m
  rfl

@[simp] theorem value_record (event : ε) (a : α) : (record event a).value = a := by
  rw [record]

@[simp] theorem value_foldlM (f : β → α → Traced ε β) (init : β) (xs : List α) :
    (xs.foldlM f init).value = xs.foldl (fun b a => (f b a).value) init := by
  induction xs generalizing init with
  | nil => rfl
  | cons x xs ih => rw [List.foldlM_cons, value_bind, ih, List.foldl_cons]

/-- Every event meets the predicate, and the value the postcondition. -/
structure Ensures (Sound : ε → Prop) (m : Traced ε α) (post : α → Prop) : Prop where
  events : ∀ event ∈ m.events, Sound event
  value : post m.value

namespace Ensures

variable {Sound : ε → Prop} {m : Traced ε α} {f : α → Traced ε β} {post : α → Prop}
  {post' : β → Prop}

theorem mono {weaker : α → Prop} (h : Ensures Sound m post) (hpost : ∀ a, post a → weaker a) :
    Ensures Sound m weaker :=
  ⟨h.events, hpost _ h.value⟩

theorem pure {a : α} (h : post a) : Ensures Sound (Pure.pure a : Traced ε α) post :=
  ⟨fun _ hevent => (nomatch hevent), h⟩

theorem record {event : ε} {a : α} (hevent : Sound event) (h : post a) :
    Ensures Sound (Traced.record event a) post :=
  ⟨fun _ hmem => List.mem_singleton.mp hmem ▸ hevent, h⟩

theorem bind (h : Ensures Sound m post) (hf : ∀ a, post a → Ensures Sound (f a) post') :
    Ensures Sound (m >>= f) post' := by
  have hrest := hf m.value h.value
  refine ⟨fun event hevent => ?_, hrest.value⟩
  rcases List.mem_append.mp hevent with hfirst | hsecond
  · exact h.events event hfirst
  · exact hrest.events event hsecond

/-- The rule for loops, with an invariant that knows the elements that are done. -/
theorem foldlM {step : β → α → Traced ε β} {init : β} (Invariant : List α → β → Prop)
    (xs : List α) (hinit : Invariant [] init)
    (hstep : ∀ done x todo b, xs = done ++ x :: todo → Invariant done b →
      Ensures Sound (step b x) (Invariant (done ++ [x]))) :
    Ensures Sound (xs.foldlM step init) (Invariant xs) := by
  suffices hloop : ∀ todo done b, xs = done ++ todo → Invariant done b →
      Ensures Sound (todo.foldlM step b) (Invariant xs) from hloop xs [] init rfl hinit
  intro todo
  induction todo with
  | nil =>
      intro done b hxs hb
      rw [List.append_nil] at hxs
      exact .pure (hxs ▸ hb)
  | cons x todo ih =>
      intro done b hxs hb
      rw [List.foldlM_cons]
      exact (hstep done x todo b hxs hb).bind fun b' hb' => ih (done ++ [x]) b' (by simp [hxs]) hb'

end Ensures

end Traced

end Hc
