import MestoryCore.Auth.Dependencies

/-!
# Who passes the checkers

The two checkers decide by one rule. A claims value passes when it is
unrestricted, or when its roles, taken as a set of known roles, grant enough.
What the order, the repetition, and the unknown names of a role list do to a
decision, and how the requirements of two checkers combine, follows from that.
-/

namespace MestoryCore.Auth

open Python

/-- The factory returns a dependency whose checker returns these same claims. -/
def Admits (factory : Except Exn Guard) (claims : AccessTokenClaims) : Prop :=
  ∃ guard, factory = .ok guard ∧ guard.check claims = .ok claims

/-- The factory returns a dependency whose checker raises 403 for these claims. -/
def Forbids (factory : Except Exn Guard) (claims : AccessTokenClaims) : Prop :=
  ∃ guard exc, factory = .ok guard ∧ guard.check claims = .error exc ∧ exc.statusCode = 403

/-- A superuser or an admin. -/
def Unrestricted (claims : AccessTokenClaims) : Prop :=
  claims.isSuperuser = true ∨ roleAdmin ∈ claims.roles

/-- Some role in the claims grants the permission. -/
def Granted (claims : AccessTokenClaims) (permission : Permission) : Prop :=
  ∃ role ∈ claims.roles, Grants role permission

section Checkers

variable {claims claims' : AccessTokenClaims} {permissions : List Permission} {roles : List String}

theorem isUnrestricted_iff : isUnrestricted claims = true ↔ Unrestricted claims := by
  simp [isUnrestricted, Unrestricted]

theorem requirePermissions_eq_ok (nonempty : permissions ≠ []) :
    ∃ h, requirePermissions permissions = .ok (.requirePermissions permissions.toFinset h) := by
  have h : permissions.toFinset.Nonempty := by simpa using nonempty
  exact ⟨h, by simp [requirePermissions, h]⟩

theorem requireRoles_eq_ok (nonempty : roles ≠ []) :
    ∃ h, requireRoles roles = .ok (.requireRoles roles.toFinset h) := by
  have h : roles.toFinset.Nonempty := by simpa using nonempty
  exact ⟨h, by simp [requireRoles, h]⟩

/-- The subset test asks for a grant of each required permission. -/
theorem subset_permissionsForRoles_iff :
    permissions.toFinset ⊆ permissionsForRoles claims.roles ↔
      ∀ permission ∈ permissions, Granted claims permission := by
  simp [Finset.subset_iff, mem_permissionsForRoles, Granted]

theorem admits_requirePermissions_iff (nonempty : permissions ≠ []) :
    Admits (requirePermissions permissions) claims ↔
      Unrestricted claims ∨ ∀ permission ∈ permissions, Granted claims permission := by
  obtain ⟨h, hguard⟩ := requirePermissions_eq_ok nonempty
  rw [← subset_permissionsForRoles_iff, ← isUnrestricted_iff]
  unfold Admits
  simp only [hguard, Except.ok.injEq, exists_eq_left', Guard.check, checkPermissions]
  split_ifs <;> simp_all

theorem admits_requireRoles_iff (nonempty : roles ≠ []) :
    Admits (requireRoles roles) claims ↔
      Unrestricted claims ∨ ∃ role ∈ roles, role ∈ claims.roles := by
  obtain ⟨h, hguard⟩ := requireRoles_eq_ok nonempty
  have meets : (roles.toFinset ∩ claims.roles.toFinset).Nonempty ↔
      ∃ role ∈ roles, role ∈ claims.roles := by
    simp [Finset.Nonempty]
  rw [← meets, ← isUnrestricted_iff]
  unfold Admits
  simp only [hguard, Except.ok.injEq, exists_eq_left', Guard.check, checkRoles]
  split_ifs <;> simp_all

/-- A checker that does not let the claims through forbids them. -/
theorem admits_or_forbids {factory : Except Exn Guard} {guard : Guard}
    (built : factory = .ok guard) :
    Admits factory claims ∨ Forbids factory claims := by
  cases hcheck : guard.check claims with
  | ok claims' =>
      obtain rfl := Guard.eq_of_check_eq_ok hcheck
      exact .inl ⟨guard, built, hcheck⟩
  | error exc =>
      exact .inr ⟨guard, exc, built, hcheck, (Guard.eq_forbidden_of_check_eq_error hcheck).2⟩

/-- An admin has every permission, so for claims that are not a superuser's the
shortcut changes nothing. -/
theorem unrestricted_or_granted_iff (plain : claims.isSuperuser = false) :
    (Unrestricted claims ∨ ∀ permission ∈ permissions, Granted claims permission) ↔
      ∀ permission ∈ permissions, Granted claims permission := by
  constructor
  · rintro ((superuser | admin) | granted)
    · simp [plain] at superuser
    · intro permission _
      exact ⟨roleAdmin, admin, grants_admin permission⟩
    · exact granted
  · exact .inr

/-- Claims with more known roles pass where the others do. -/
theorem admits_of_knownRoles (nonempty : permissions ≠ [])
    (superuser : claims.isSuperuser = claims'.isSuperuser)
    (more : ∀ role, KnownRole role → role ∈ claims.roles → role ∈ claims'.roles)
    (h : Admits (requirePermissions permissions) claims) :
    Admits (requirePermissions permissions) claims' := by
  have admin : KnownRole roleAdmin := (grants_admin .roleAssign).knownRole
  rw [admits_requirePermissions_iff nonempty, Unrestricted] at h ⊢
  rcases h with (hsuperuser | hadmin) | granted
  · exact .inl (.inl (superuser ▸ hsuperuser))
  · exact .inl (.inr (more roleAdmin admin hadmin))
  · right
    intro permission hmem
    obtain ⟨role, hrole, hgrants⟩ := granted permission hmem
    exact ⟨role, more role hgrants.knownRole hrole, hgrants⟩

end Checkers

section Union

variable {α : Type} [DecidableEq α] {l l₁ l₂ : List α}

theorem mem_iff_of_toFinset_eq_union (h : l.toFinset = l₁.toFinset ∪ l₂.toFinset) {a : α} :
    a ∈ l ↔ a ∈ l₁ ∨ a ∈ l₂ := by
  rw [← List.mem_toFinset, h, Finset.mem_union, List.mem_toFinset, List.mem_toFinset]

theorem ne_nil_of_toFinset_eq_union (h : l.toFinset = l₁.toFinset ∪ l₂.toFinset)
    (nonempty : l₁ ≠ []) : l ≠ [] := by
  obtain ⟨a, ha⟩ := List.exists_mem_of_ne_nil l₁ nonempty
  exact List.ne_nil_of_mem ((mem_iff_of_toFinset_eq_union h).mpr (.inl ha))

end Union

/-- The rules of the two checkers. `exact` says who passes `require_permissions`
and `forbidden` that everybody else gets 403. The next fields say that the
decision depends on the set of known roles alone and grows with it, and the last
three how the permissions, the shortcut, and the required roles combine. -/
structure RoleAlgebra (P Q : List Permission) (R S : List String) : Prop where
  exact : ∀ claims, Admits (requirePermissions P) claims ↔
    claims.isSuperuser = true ∨ roleAdmin ∈ claims.roles ∨
      ∀ permission ∈ P, ∃ role ∈ claims.roles, Grants role permission
  forbidden : ∀ claims, ¬ Admits (requirePermissions P) claims →
    Forbids (requirePermissions P) claims
  knownRoles : ∀ claims claims', claims.isSuperuser = claims'.isSuperuser →
    (∀ role, KnownRole role → (role ∈ claims.roles ↔ role ∈ claims'.roles)) →
      (Admits (requirePermissions P) claims ↔ Admits (requirePermissions P) claims')
  monotone : ∀ claims claims', claims.isSuperuser = claims'.isSuperuser →
    claims.roles ⊆ claims'.roles → Admits (requirePermissions P) claims →
      Admits (requirePermissions P) claims'
  union : ∀ U : List Permission, U.toFinset = P.toFinset ∪ Q.toFinset → ∀ claims,
    (Admits (requirePermissions U) claims ↔
      Admits (requirePermissions P) claims ∧ Admits (requirePermissions Q) claims)
  shortcut : ∀ claims, claims.isSuperuser = false →
    (Admits (requirePermissions P) claims ↔ P.toFinset ⊆ permissionsForRoles claims.roles)
  anyRole : ∀ T : List String, T.toFinset = R.toFinset ∪ S.toFinset → ∀ claims,
    (Admits (requireRoles T) claims ↔
      Admits (requireRoles R) claims ∨ Admits (requireRoles S) claims)

section Algebra

variable {P Q : List Permission} {R S : List String}

theorem roleAlgebra (hP : P ≠ []) (hQ : Q ≠ []) (hR : R ≠ []) (hS : S ≠ []) :
    RoleAlgebra P Q R S := by
  constructor
  · intro claims
    rw [admits_requirePermissions_iff hP, Unrestricted, or_assoc]
    rfl
  · intro claims refused
    obtain ⟨_, hguard⟩ := requirePermissions_eq_ok hP
    exact (admits_or_forbids hguard).resolve_left refused
  · intro claims claims' superuser same
    constructor
    · exact admits_of_knownRoles hP superuser fun role known => (same role known).mp
    · exact admits_of_knownRoles hP superuser.symm fun role known => (same role known).mpr
  · intro claims claims' superuser more
    exact admits_of_knownRoles hP superuser fun role _ hrole => more hrole
  · intro U hU claims
    have hne := ne_nil_of_toFinset_eq_union hU hP
    rw [admits_requirePermissions_iff hne, admits_requirePermissions_iff hP,
      admits_requirePermissions_iff hQ, ← or_and_left]
    simp only [mem_iff_of_toFinset_eq_union hU, or_imp, forall_and]
  · intro claims plain
    rw [admits_requirePermissions_iff hP, unrestricted_or_granted_iff plain,
      subset_permissionsForRoles_iff]
  · intro T hT claims
    have hne := ne_nil_of_toFinset_eq_union hT hR
    rw [admits_requireRoles_iff hne, admits_requireRoles_iff hR, admits_requireRoles_iff hS,
      ← or_or_distrib_left]
    simp only [mem_iff_of_toFinset_eq_union hT, or_and_right, exists_or]

/-- Reading accounts and assigning roles, for moderators and for others. -/
theorem roleAlgebra_sample :
    RoleAlgebra [.userReadAny] [.roleAssign, .userReadAny] [roleModerator] ["editor", "author"] :=
  roleAlgebra (by decide) (by decide) (by decide) (by decide)

end Algebra
end MestoryCore.Auth
