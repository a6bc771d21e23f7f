import MestoryCore.Events.Registry
import Mathlib.Data.List.Nodup
import Mathlib.Data.Set.Card

/-!
# The registry of any class hierarchy

A class below the base is known by its path, the positions of the subclasses
that lead to it, so that one class is told from another by where it stands and
not by what it is. `Declared` asks of a hierarchy what the registry needs: every
class below the base has a routing key, and no two paths have the same one.

`registered_of_declared` says that the walk then lists every path once, above
before below, and that the dictionary has one entry for each of them.
-/

namespace MestoryCore.Events

universe u v

variable {κ : Type u} {ρ : Type v}

def ClassTree.subclasses : ClassTree κ → List (ClassTree κ)
  | .node _ subclasses => subclasses

/-- The class at the end of a path. -/
def ClassTree.classAt? : ClassTree κ → List Nat → Option κ
  | tree, [] => some tree.cls
  | tree, i :: path => tree.subclasses[i]?.bind fun subclass => subclass.classAt? path

/-- What is shown of a tree may use that it holds of the subclasses. -/
theorem ClassTree.induction {motive : ClassTree κ → Prop}
    (node : ∀ cls subclasses, (∀ subclass ∈ subclasses, motive subclass) →
      motive (.node cls subclasses)) (tree : ClassTree κ) : motive tree := by
  apply @ClassTree.rec κ motive fun trees => ∀ subclass ∈ trees, motive subclass
  · exact node
  · intro subclass hmem
    cases hmem
  · intro first rest hfirst hrest subclass hmem
    rcases List.mem_cons.mp hmem with rfl | hmem
    · exact hfirst
    · exact hrest subclass hmem

/-- The walk lists each subclass, followed by the walk of its own subclasses. -/
theorem allEventTypes_eq_flatMap (tree : ClassTree κ) :
    allEventTypes tree =
      tree.subclasses.flatMap fun subclass => subclass.cls :: allEventTypes subclass := by
  obtain ⟨cls, subclasses⟩ := tree
  rw [allEventTypes, ClassTree.subclasses]
  induction subclasses with
  | nil => rfl
  | cons subclass rest ih => rw [allEventTypesOf, ih, List.flatMap_cons, List.cons_append]

theorem ClassTree.classAt?_cons_eq_some_iff {tree : ClassTree κ} {i : Nat} {path : List Nat}
    {cls : κ} : tree.classAt? (i :: path) = some cls ↔
      ∃ subclass, tree.subclasses[i]? = some subclass ∧ subclass.classAt? path = some cls := by
  rw [classAt?, Option.bind_eq_some_iff]

/-- A class is listed exactly when a path leads to it. -/
theorem mem_allEventTypes {tree : ClassTree κ} {cls : κ} :
    cls ∈ allEventTypes tree ↔ ∃ path ≠ [], tree.classAt? path = some cls := by
  induction tree using ClassTree.induction generalizing cls with
  | node own subclasses ih =>
      rw [allEventTypes_eq_flatMap, List.mem_flatMap]
      constructor
      · rintro ⟨subclass, hmem, hcls⟩
        obtain ⟨i, hi⟩ := List.mem_iff_getElem?.mp hmem
        rcases List.mem_cons.mp hcls with rfl | hcls
        · exact ⟨[i], by simp, ClassTree.classAt?_cons_eq_some_iff.mpr ⟨subclass, hi, rfl⟩⟩
        · obtain ⟨path, -, hpath⟩ := (ih subclass hmem).mp hcls
          exact ⟨i :: path, by simp, ClassTree.classAt?_cons_eq_some_iff.mpr ⟨subclass, hi, hpath⟩⟩
      · rintro ⟨path, hne, hpath⟩
        cases path with
        | nil => exact absurd rfl hne
        | cons i rest =>
            obtain ⟨subclass, hi, hrest⟩ := ClassTree.classAt?_cons_eq_some_iff.mp hpath
            have hmem := List.mem_of_getElem? hi
            refine ⟨subclass, hmem, ?_⟩
            cases rest with
            | nil =>
                obtain rfl : subclass.cls = cls := Option.some.inj hrest
                exact List.mem_cons_self ..
            | cons j rest =>
                exact List.mem_cons_of_mem _ ((ih subclass hmem).mpr ⟨_, by simp, hrest⟩)

/-- A class is listed before the classes below it. -/
theorem sublist_allEventTypes {tree : ClassTree κ} {path rest : List Nat} {cls below : κ}
    (proper : path ≠ []) (further : rest ≠ []) (hcls : tree.classAt? path = some cls)
    (hbelow : tree.classAt? (path ++ rest) = some below) :
    [cls, below].Sublist (allEventTypes tree) := by
  induction path generalizing tree with
  | nil => exact absurd rfl proper
  | cons i path ih =>
      obtain ⟨subclass, hi, hpath⟩ := ClassTree.classAt?_cons_eq_some_iff.mp hcls
      obtain ⟨same, hi', hrest⟩ := ClassTree.classAt?_cons_eq_some_iff.mp hbelow
      obtain rfl : subclass = same := Option.some.inj (hi.symm.trans hi')
      have hmem := List.mem_of_getElem? hi
      have part : (subclass.cls :: allEventTypes subclass).Sublist (allEventTypes tree) := by
        have one := (List.singleton_sublist.mpr hmem).flatMap
          fun subclass => subclass.cls :: allEventTypes subclass
        rwa [List.flatMap_singleton, ← allEventTypes_eq_flatMap] at one
      refine List.Sublist.trans ?_ part
      cases path with
      | nil =>
          obtain rfl : subclass.cls = cls := Option.some.inj hpath
          have hlisted := mem_allEventTypes.mpr ⟨rest, further, hrest⟩
          exact (List.singleton_sublist.mpr hlisted).cons_cons _
      | cons j path => exact (ih (by simp) hpath hrest).cons _

/-- Every class below the base declares a routing key, and no two of them the
same one. -/
structure Declared (key : κ → Option ρ) (tree : ClassTree κ) : Prop where
  own : ∀ {path cls}, path ≠ [] → tree.classAt? path = some cls → (key cls).isSome
  distinct : ∀ {path path' cls cls'}, path ≠ [] → path' ≠ [] → tree.classAt? path = some cls →
    tree.classAt? path' = some cls' → key cls = key cls' → path = path'

section Walk

variable {key : κ → Option ρ} {tree subclass : ClassTree κ} {i : Nat}

/-- The hierarchy below a class of a declared one is declared. -/
theorem Declared.below (h : Declared key tree) (hi : tree.subclasses[i]? = some subclass) :
    Declared key subclass := by
  have lift : ∀ {path cls}, subclass.classAt? path = some cls →
      tree.classAt? (i :: path) = some cls := fun hpath =>
    ClassTree.classAt?_cons_eq_some_iff.mpr ⟨subclass, hi, hpath⟩
  constructor
  · intro path cls _ hpath
    exact h.own (by simp) (lift hpath)
  · intro path path' cls cls' _ _ hpath hpath' hkey
    have same := h.distinct (by simp) (by simp) (lift hpath) (lift hpath') hkey
    exact (List.cons.inj same).2

/-- A key of the walk of a subclass, that class included, stands under its position. -/
theorem exists_path_of_mem_map (tree : ClassTree κ) (hi : tree.subclasses[i]? = some subclass)
    {k : Option ρ} (h : k ∈ (subclass.cls :: allEventTypes subclass).map key) :
    ∃ path cls, tree.classAt? (i :: path) = some cls ∧ key cls = k := by
  obtain ⟨cls, hcls, hk⟩ := List.mem_map.mp h
  obtain ⟨path, hpath⟩ : ∃ path, subclass.classAt? path = some cls := by
    rcases List.mem_cons.mp hcls with rfl | hcls
    · exact ⟨[], rfl⟩
    · obtain ⟨path, -, hpath⟩ := mem_allEventTypes.mp hcls
      exact ⟨path, hpath⟩
  exact ⟨path, cls, ClassTree.classAt?_cons_eq_some_iff.mpr ⟨subclass, hi, hpath⟩, hk⟩

/-- No key is listed twice. -/
theorem Declared.keys_nodup (h : Declared key tree) :
    ((allEventTypes tree).map key).Nodup := by
  induction tree using ClassTree.induction with
  | node own subclasses ih =>
      rw [allEventTypes_eq_flatMap, List.map_flatMap, List.nodup_flatMap]
      constructor
      · intro subclass hmem
        obtain ⟨i, hi⟩ := List.mem_iff_getElem?.mp hmem
        rw [List.map_cons, List.nodup_cons]
        refine ⟨?_, ih subclass hmem (h.below hi)⟩
        intro hown
        -- A class below this one would have the key of this one.
        obtain ⟨cls, hcls, hkey⟩ := List.mem_map.mp hown
        obtain ⟨path, hne, hpath⟩ := mem_allEventTypes.mp hcls
        have below := ClassTree.classAt?_cons_eq_some_iff.mpr ⟨subclass, hi, hpath⟩
        have this := ClassTree.classAt?_cons_eq_some_iff.mpr
          ⟨subclass, hi, (rfl : subclass.classAt? [] = some subclass.cls)⟩
        have same := h.distinct (by simp) (by simp) below this hkey
        exact hne (List.cons.inj same).2
      · rw [List.pairwise_iff_getElem]
        intro i j hi hj hlt k hki hkj
        have hi := List.getElem?_eq_getElem hi
        have hj := List.getElem?_eq_getElem hj
        obtain ⟨path, cls, hpath, hkey⟩ := exists_path_of_mem_map (.node own subclasses) hi hki
        obtain ⟨path', cls', hpath', hkey'⟩ :=
          exists_path_of_mem_map (.node own subclasses) hj hkj
        have same := h.distinct (by simp) (by simp) hpath hpath' (hkey.trans hkey'.symm)
        exact absurd (List.cons.inj same).1 (Nat.ne_of_lt hlt)

end Walk

/-- What is registered of a hierarchy. The paths below the base and the listed
classes are the same; a class stands before those below it; and the dictionary
has the declared keys, each for the class that declares it, and nothing more. -/
structure Registered [DecidableEq ρ] (key : κ → Option ρ) (tree : ClassTree κ)
    (registry : Finmap fun _ : ρ => κ) : Prop where
  listed : ∀ {cls}, cls ∈ allEventTypes tree ↔ ∃ path ≠ [], tree.classAt? path = some cls
  once : (allEventTypes tree).Nodup
  before : ∀ {path rest cls below}, path ≠ [] → rest ≠ [] → tree.classAt? path = some cls →
    tree.classAt? (path ++ rest) = some below → [cls, below].Sublist (allEventTypes tree)
  domain : ∀ {k}, k ∈ registry ↔ ∃ path ≠ [], ∃ cls, tree.classAt? path = some cls ∧
    key cls = some k
  declarer : ∀ {k cls}, registry.lookup k = some cls ↔
    (∃ path ≠ [], tree.classAt? path = some cls) ∧ key cls = some k
  size : registry.keys.card = {path | path ≠ [] ∧ (tree.classAt? path).isSome}.ncard

section Registry

variable {key : κ → Option ρ} {tree : ClassTree κ}
variable {registry : Finmap fun _ : ρ => κ}

/-- Two paths with different ends have different keys, so a dictionary with all
of the keys has one entry for each path. -/
theorem Declared.card_keys (h : Declared key tree)
    (domain : ∀ {k}, k ∈ registry ↔ ∃ path ≠ [], ∃ cls, tree.classAt? path = some cls ∧
      key cls = some k) :
    registry.keys.card = {path | path ≠ [] ∧ (tree.classAt? path).isSome}.ncard := by
  let below := {path | path ≠ [] ∧ (tree.classAt? path).isSome}
  have injective : Set.InjOn (fun path => (tree.classAt? path).bind key) below := by
    rintro path ⟨hne, hsome⟩ path' ⟨hne', hsome'⟩ hkey
    obtain ⟨cls, hcls⟩ := Option.isSome_iff_exists.mp hsome
    obtain ⟨cls', hcls'⟩ := Option.isSome_iff_exists.mp hsome'
    simp only [hcls, hcls', Option.bind_some] at hkey
    exact h.distinct hne hne' hcls hcls' hkey
  have image : Set.image (fun path => (tree.classAt? path).bind key) below =
      Set.image some (registry.keys : Set ρ) := by
    ext k
    constructor
    · rintro ⟨path, ⟨hne, hsome⟩, rfl⟩
      obtain ⟨cls, hcls⟩ := Option.isSome_iff_exists.mp hsome
      obtain ⟨k, hk⟩ := Option.isSome_iff_exists.mp (h.own hne hcls)
      exact ⟨k, Finmap.mem_keys.mpr (domain.mpr ⟨path, hne, cls, hcls, hk⟩), by simp [hcls, hk]⟩
    · rintro ⟨k, hk, rfl⟩
      obtain ⟨path, hne, cls, hcls, hkey⟩ := domain.mp (Finmap.mem_keys.mp hk)
      exact ⟨path, ⟨hne, by simp [hcls]⟩, by simp [hcls, hkey]⟩
  calc registry.keys.card
      = (Set.image some (registry.keys : Set ρ)).ncard := by
        rw [Set.ncard_image_of_injective _ (Option.some_injective ρ), Set.ncard_coe_finset]
    _ = below.ncard := by rw [← image, injective.ncard_image]

/-- The registry of a declared hierarchy is complete and unambiguous. -/
theorem registered_of_declared [DecidableEq ρ] (h : Declared key tree) :
    ∃ registry, byRoutingKey key (allEventTypes tree) = some registry ∧
      Registered key tree registry := by
  have own : ∀ cls ∈ allEventTypes tree, (key cls).isSome := by
    intro cls hcls
    obtain ⟨path, hne, hpath⟩ := mem_allEventTypes.mp hcls
    exact h.own hne hpath
  obtain ⟨registry, hregistry⟩ := exists_byRoutingKey own
  have declarer : ∀ {k cls}, registry.lookup k = some cls ↔
      (∃ path ≠ [], tree.classAt? path = some cls) ∧ key cls = some k := by
    intro k cls
    rw [lookup_byRoutingKey hregistry h.keys_nodup, mem_allEventTypes]
  have domain : ∀ {k}, k ∈ registry ↔ ∃ path ≠ [], ∃ cls, tree.classAt? path = some cls ∧
      key cls = some k := by
    intro k
    rw [← Finmap.lookup_isSome, Option.isSome_iff_exists]
    constructor
    · rintro ⟨cls, hcls⟩
      obtain ⟨⟨path, hne, hpath⟩, hk⟩ := declarer.mp hcls
      exact ⟨path, hne, cls, hpath, hk⟩
    · rintro ⟨path, hne, cls, hpath, hk⟩
      exact ⟨cls, declarer.mpr ⟨⟨path, hne, hpath⟩, hk⟩⟩
  exact ⟨registry, hregistry, {
    listed := mem_allEventTypes
    once := h.keys_nodup.of_map
    before := sublist_allEventTypes
    domain
    declarer
    size := h.card_keys domain }⟩

end Registry

/-- A base with two subclasses, of which the first has one of its own. -/
def ClassTree.sample : ClassTree Nat := .node 0 [.node 1 [.node 2 []], .node 3 []]

theorem ClassTree.classAt?_sample {path : List Nat} {cls : Nat} (proper : path ≠ [])
    (h : sample.classAt? path = some cls) :
    (path = [0] ∧ cls = 1) ∨ (path = [0, 0] ∧ cls = 2) ∨ (path = [1] ∧ cls = 3) := by
  rcases path with _ | ⟨_ | _ | i, _ | ⟨_ | j, _ | ⟨k, rest⟩⟩⟩ <;>
    simp [sample, classAt?, subclasses, ClassTree.cls] at h proper ⊢ <;> exact h.symm

theorem registered_of_declared_sample :
    ∃ registry, byRoutingKey some (allEventTypes ClassTree.sample) = some registry ∧
      Registered some ClassTree.sample registry := by
  apply registered_of_declared
  constructor
  · intro path cls _ _
    rfl
  · intro path path' cls cls' hne hne' hcls hcls' hkey
    rcases ClassTree.classAt?_sample hne hcls with ⟨rfl, rfl⟩ | ⟨rfl, rfl⟩ | ⟨rfl, rfl⟩ <;>
      rcases ClassTree.classAt?_sample hne' hcls' with ⟨rfl, rfl⟩ | ⟨rfl, rfl⟩ | ⟨rfl, rfl⟩ <;>
      first | rfl | cases hkey

end MestoryCore.Events
