import GuardedThings.Access.Administration
import GuardedThings.Aggregate.Command
import GuardedThings.Aggregate.SizeLimit
import GuardedThings.Policy.Event

/-!
# Requests to policies

What can be asked of a policy, how it is named on the wire, and which part of
the policy it addresses; and the settings by which requests are decided.
-/

set_option autoImplicit false

namespace GuardedThings

/-- What is asked of a policy. -/
inductive PolicyRequest where
  | create (policy : Policy)
  /-- Replaces the policy, or creates it if there is none. -/
  | replace (policy : Policy)
  | replaceGroup (group : PolicyGroup)
  | write (piece : PolicyPiece)
  | remove (item : PolicyItem)
  | retrieve (part : PolicyPart)
deriving DecidableEq

namespace PolicyRequest

/-- The part of the policy a request addresses. -/
def part : PolicyRequest → PolicyPart
  | create _ | replace _ => .whole
  | replaceGroup group => group.part
  | write piece => piece.part
  | remove item => item.part
  | retrieve part => part

/-- Whether a request only reads. -/
def isQuery : PolicyRequest → Bool
  | retrieve _ => true
  | _ => false

/-- The name of a request. -/
def name : PolicyRequest → String
  | create _ => "createPolicy"
  | replace _ => "modifyPolicy"
  | replaceGroup (.entries _) => "modifyPolicyEntries"
  | replaceGroup (.subjects ..) => "modifySubjects"
  | replaceGroup (.resources ..) => "modifyResources"
  | write (.entry _) => "modifyPolicyEntry"
  | write (.subject ..) => "modifySubject"
  | write (.resource ..) => "modifyResource"
  | remove .whole => "deletePolicy"
  | remove (.entry _) => "deletePolicyEntry"
  | remove (.subject ..) => "deleteSubject"
  | remove (.resource ..) => "deleteResource"
  | retrieve .whole => "retrievePolicy"
  | retrieve .entries => "retrievePolicyEntries"
  | retrieve (.entry _) => "retrievePolicyEntry"
  | retrieve (.subjects _) => "retrieveSubjects"
  | retrieve (.subject ..) => "retrieveSubject"
  | retrieve (.resources _) => "retrieveResources"
  | retrieve (.resource ..) => "retrieveResource"

/-- The type of the response to a request. -/
def responseType (r : PolicyRequest) : String := "policies.responses:" ++ r.name

/-- How requests are decoded, by name. -/
def table {σ : Type} [Source σ] : List (String × VariantBody σ PolicyRequest) :=
  [("createPolicy", .fields ((Fields.required "policy" Wire.decode).map create)),
    ("modifyPolicy", .fields ((Fields.required "policy" Wire.decode).map replace)),
    ("deletePolicy", .bare (remove .whole)),
    ("retrievePolicy", .bare (retrieve .whole)),
    ("modifyPolicyEntries", .fields (PolicyGroup.entriesFields replaceGroup)),
    ("retrievePolicyEntries", .bare (retrieve .entries)),
    ("modifyPolicyEntry", .fields (PolicyPiece.entryFields write)),
    ("deletePolicyEntry", .fields (PolicyItem.entryFields fun l => remove (.entry l))),
    ("retrievePolicyEntry", .fields (PolicyItem.entryFields fun l => retrieve (.entry l))),
    ("modifySubjects", .fields (PolicyGroup.subjectsFields replaceGroup)),
    ("modifySubject", .fields (PolicyPiece.subjectFields write)),
    ("deleteSubject", .fields (PolicyItem.subjectFields fun l id => remove (.subject l id))),
    ("retrieveSubjects", .fields (PolicyItem.entryFields fun l => retrieve (.subjects l))),
    ("retrieveSubject", .fields (PolicyItem.subjectFields fun l id => retrieve (.subject l id))),
    ("modifyResources", .fields (PolicyGroup.resourcesFields replaceGroup)),
    ("modifyResource", .fields (PolicyPiece.resourceFields write)),
    ("deleteResource", .fields (PolicyItem.resourceFields fun l k => remove (.resource l k))),
    ("retrieveResources", .fields (PolicyItem.entryFields fun l => retrieve (.resources l))),
    ("retrieveResource", .fields (PolicyItem.resourceFields fun l k => retrieve (.resource l k)))]

/-- The wire form of a query. -/
def encodeQuery (name : String) : PolicyPart → Json
  | .whole | .entries => .string name
  | .entry l | .subjects l | .resources l => .single name (PolicyItem.entry l).payload
  | .subject l id => .single name (PolicyItem.subject l id).payload
  | .resource l key => .single name (PolicyItem.resource l key).payload

/-- The wire form of a request. -/
def encode (r : PolicyRequest) : Json :=
  match r with
  | create p | replace p => .single r.name (.ofFields [("policy", some p.toJson)])
  | replaceGroup group => .single r.name group.payload
  | write piece => .single r.name piece.payload
  | remove .whole => .string r.name
  | remove item => .single r.name item.payload
  | retrieve part => encodeQuery r.name part

instance : Wire PolicyRequest := ⟨encode, VariantBody.decode table⟩

end PolicyRequest

/-- A command addressed to a policy. -/
abbrev PolicyCommand := Command .policy PolicyRequest

/-- The settings by which requests to policies are decided. -/
structure PolicyConfig where
  maxSizeBytes : UInt64
  /-- Expiries are rounded up to a multiple of this; zero keeps them. -/
  expiryGranularity : UInt64
  adminRule : AdminRule
deriving DecidableEq

namespace PolicyConfig

/-- At most 100 KiB, expiries as given, an administrator with write access. -/
def standard : PolicyConfig := ⟨102400, 0, .standard⟩

/-- The fields of the settings. -/
def fields {σ : Type} [Source σ] : Fields σ PolicyConfig :=
  ((Fields.defaulted "max_policy_size_bytes" standard.maxSizeBytes Wire.decode).and <|
    (Fields.defaulted "subject_expiry_granularity_ms" standard.expiryGranularity
      Wire.decode).and
      (Fields.defaulted "validator" standard.adminRule Wire.decode)).map
    fun (maxSizeBytes, expiryGranularity, adminRule) =>
      { maxSizeBytes, expiryGranularity, adminRule }

instance : Wire PolicyConfig where
  encode c := Json.ofFields
    [("max_policy_size_bytes", some (.ofWord c.maxSizeBytes)),
      ("subject_expiry_granularity_ms", some (.ofWord c.expiryGranularity)),
      ("validator", some (Wire.encode c.adminRule))]
  decode := fields.decode

/-- The size limit of policies. -/
def sizeLimit (c : PolicyConfig) : SizeLimit := ⟨.policy, c.maxSizeBytes.toNat⟩

end PolicyConfig

end GuardedThings
