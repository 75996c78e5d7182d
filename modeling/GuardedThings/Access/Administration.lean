import GuardedThings.Access.Enforcer

/-!
# Administration of policies

A policy has to stay manageable: some subject that never expires holds the
required permissions on the root resource. Expiring subjects do not count,
since nobody could change the policy once they are gone.
-/

set_option autoImplicit false

namespace GuardedThings

/-- What a permanent subject of every policy has to hold. -/
structure AdminRule where
  rootResource : ResourceKey
  requiredPermissions : Permissions
deriving DecidableEq

namespace AdminRule

/-- Write access to the root of the policy. -/
def standard : AdminRule := ⟨.policy .root, .write⟩

/-- The fields of a rule. -/
def fields {σ : Type} [Source σ] : Fields σ AdminRule :=
  ((Fields.defaulted "root_resource" standard.rootResource Wire.decode).and
    (Fields.defaulted "required_permissions" standard.requiredPermissions Wire.decode)).map
    fun (rootResource, requiredPermissions) => ⟨rootResource, requiredPermissions⟩

instance : Wire AdminRule where
  encode r := Json.ofFields
    [("required_permissions", some (Wire.encode r.requiredPermissions)),
      ("root_resource", some (Wire.encode r.rootResource))]
  decode := fields.decode

/-- The permanent subjects of a policy that hold what the rule requires. -/
def administrators (rule : AdminRule) (policy : Policy) : KeySet SubjectId :=
  (Enforcer.permanentOnly policy).subjectsWith rule.rootResource rule.requiredPermissions

/-- Whether a policy has an administrator. -/
def isMet (rule : AdminRule) (policy : Policy) : Bool := !(rule.administrators policy).isEmpty

/-- What a policy without administrator lacks. -/
def complaint (rule : AdminRule) : String :=
  "It must contain at least one permanent Subject with permission(s) " ++
    rule.requiredPermissions.text ++ " on resource '" ++ rule.rootResource.text ++ "'."

end AdminRule

end GuardedThings
