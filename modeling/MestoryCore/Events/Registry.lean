import Mathlib.Data.Finmap
import Mathlib.Data.List.Induction

/-!
# Walking a class tree and registering its classes

`_all_event_types` walks the subclasses of a base class, each before its own
subclasses, and `EVENTS_BY_ROUTING_KEY` is a dictionary comprehension over the
list it returns. Both are written here for any kind of class and of key, so
that their rules do not depend on which events are declared today.
-/

namespace MestoryCore.Events

universe u v

/-- A class with its `__subclasses__()`. -/
inductive ClassTree (κ : Type u) where
  | node (cls : κ) (subclasses : List (ClassTree κ))

variable {κ : Type u} {ρ : Type v}

def ClassTree.cls : ClassTree κ → κ
  | .node cls _ => cls

mutual

/-- `_all_event_types`. -/
def allEventTypes : ClassTree κ → List κ
  | .node _ subclasses => allEventTypesOf subclasses

/-- Its loop over the subclasses: append the class, extend by the walk of its own. -/
def allEventTypesOf : List (ClassTree κ) → List κ
  | [] => []
  | subclass :: rest => subclass.cls :: (allEventTypes subclass ++ allEventTypesOf rest)

end

variable [DecidableEq ρ]

/-- `{event_type.routing_key: event_type for event_type in types}`. A class
without a key raises `AttributeError`, here `none`. -/
def byRoutingKey (key : κ → Option ρ) (types : List κ) : Option (Finmap fun _ : ρ => κ) :=
  types.foldlM (fun registry cls => (key cls).map fun k => registry.insert k cls) ∅

/-- A comprehension succeeds when every class has a key. -/
theorem exists_byRoutingKey {key : κ → Option ρ} {types : List κ}
    (declared : ∀ cls ∈ types, (key cls).isSome) :
    ∃ registry, byRoutingKey key types = some registry := by
  induction types using List.reverseRecOn with
  | nil => exact ⟨∅, rfl⟩
  | append_singleton types cls ih =>
      obtain ⟨registry, h⟩ := ih fun c hc => declared c (by simp [hc])
      obtain ⟨k, hk⟩ := Option.isSome_iff_exists.mp (declared cls (by simp))
      refine ⟨registry.insert k cls, ?_⟩
      rw [byRoutingKey] at h ⊢
      simp [List.foldlM_append, h, hk]

/-- No class is overwritten when the keys are pairwise distinct: the registry
holds every class under its own key, and nothing else. -/
theorem lookup_byRoutingKey {key : κ → Option ρ} {types : List κ}
    {registry : Finmap fun _ : ρ => κ} (h : byRoutingKey key types = some registry)
    (distinct : (types.map key).Nodup) {k : ρ} {cls : κ} :
    registry.lookup k = some cls ↔ cls ∈ types ∧ key cls = some k := by
  induction types using List.reverseRecOn generalizing registry with
  | nil =>
      obtain rfl : ∅ = registry := by simpa [byRoutingKey] using h
      simp
  | append_singleton types last ih =>
      obtain ⟨before, hbefore, hlast⟩ : ∃ before, byRoutingKey key types = some before ∧
          (key last).map (fun k => before.insert k last) = some registry := by
        simpa [byRoutingKey, List.foldlM_append, Option.bind_eq_some_iff] using h
      obtain ⟨own, hown, rfl⟩ := Option.map_eq_some_iff.mp hlast
      rw [List.map_append, List.nodup_append] at distinct
      obtain ⟨earlier, -, apart⟩ := distinct
      have other : ∀ c ∈ types, key c ≠ some own := by
        intro c hc heq
        exact apart _ (List.mem_map_of_mem hc) (some own) (by simp [hown]) heq
      by_cases hk : k = own
      · subst hk
        rw [Finmap.lookup_insert, Option.some.injEq, List.mem_append, List.mem_singleton]
        constructor
        · rintro rfl
          exact ⟨.inr rfl, hown⟩
        · rintro ⟨hc | rfl, hkey⟩
          · exact absurd hkey (other cls hc)
          · rfl
      · rw [Finmap.lookup_insert_of_ne _ hk, ih hbefore earlier, List.mem_append,
          List.mem_singleton]
        constructor
        · rintro ⟨hc, hkey⟩
          exact ⟨.inl hc, hkey⟩
        · rintro ⟨hc | rfl, hkey⟩
          · exact ⟨hc, hkey⟩
          · rw [hown, Option.some.injEq] at hkey
            exact absurd hkey.symm hk

end MestoryCore.Events
