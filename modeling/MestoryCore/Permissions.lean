import Mathlib.Data.Finset.Image
import Mathlib.Data.Fintype.Basic

/-!
# Static role and permission definitions

The tables of `permissions.py`, and the fold that resolves the roles of a token
to the union of the permissions they grant. An unknown role grants nothing.
-/

namespace MestoryCore

def roleUser : String := "user"
def roleModerator : String := "moderator"
def roleAdmin : String := "admin"

inductive Permission where
  | userReadSelf
  | userUpdateSelf
  | userReadAny
  | userUpdateAny
  | userDeleteAny
  | roleAssign
  | profileVerifyBusiness
  deriving DecidableEq, Repr

instance : Fintype Permission where
  elems := {.userReadSelf, .userUpdateSelf, .userReadAny, .userUpdateAny, .userDeleteAny,
    .roleAssign, .profileVerifyBusiness}
  complete := by
    intro permission
    cases permission <;> decide

/-- The string that a permission is. -/
def Permission.value : Permission → String
  | .userReadSelf => "user:read:self"
  | .userUpdateSelf => "user:update:self"
  | .userReadAny => "user:read:any"
  | .userUpdateAny => "user:update:any"
  | .userDeleteAny => "user:delete:any"
  | .roleAssign => "role:assign"
  | .profileVerifyBusiness => "profile:verify:business"

def rolePermissions : List (String × Finset Permission) :=
  [(roleUser, {.userReadSelf, .userUpdateSelf}),
    (roleModerator, {.userReadSelf, .userUpdateSelf, .userReadAny, .userUpdateAny,
      .profileVerifyBusiness}),
    (roleAdmin, Finset.univ)]

/-- `ROLE_PERMISSIONS.get(role, frozenset())`. -/
def permissionsOf (role : String) : Finset Permission :=
  (rolePermissions.lookup role).getD ∅

/-- `permissions_for_roles`. -/
def permissionsForRoles (roles : List String) : Finset Permission :=
  roles.foldl (fun granted role => granted ∪ permissionsOf role) ∅

/-- The role is a key of `ROLE_PERMISSIONS`. -/
def KnownRole (role : String) : Prop := (rolePermissions.lookup role).isSome

/-- `ROLE_PERMISSIONS` has the role, and grants it the permission. -/
def Grants (role : String) (permission : Permission) : Prop :=
  ∃ permissions, rolePermissions.lookup role = some permissions ∧ permission ∈ permissions

theorem mem_permissionsOf {role : String} {permission : Permission} :
    permission ∈ permissionsOf role ↔ Grants role permission := by
  unfold permissionsOf Grants
  cases rolePermissions.lookup role <;> simp

theorem Grants.knownRole {role : String} {permission : Permission} (h : Grants role permission) :
    KnownRole role := by
  obtain ⟨permissions, hlookup, _⟩ := h
  simp [KnownRole, hlookup]

/-- An admin may do everything. -/
theorem grants_admin (permission : Permission) : Grants roleAdmin permission :=
  ⟨Finset.univ, by decide, Finset.mem_univ permission⟩

/-- The roles of a list grant what one of them grants. -/
theorem mem_permissionsForRoles {roles : List String} {permission : Permission} :
    permission ∈ permissionsForRoles roles ↔ ∃ role ∈ roles, Grants role permission := by
  have fold : ∀ granted : Finset Permission,
      permission ∈ roles.foldl (fun granted role => granted ∪ permissionsOf role) granted ↔
        permission ∈ granted ∨ ∃ role ∈ roles, Grants role permission := by
    induction roles with
    | nil => simp
    | cons role roles ih =>
        intro granted
        rw [List.foldl_cons, ih]
        simp [or_assoc, mem_permissionsOf]
  simpa [permissionsForRoles] using fold ∅

end MestoryCore
