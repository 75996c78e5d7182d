import GuardedThings.Json.Agreement
import GuardedThings.Thing.Basic

/-!
# Agreement of things

Two things agree when they are equal up to the signs of zeros in attributes
and properties. An edit changes a thing when the thing after it does not agree
with the thing before it; what it stores is stored as given all the same.
-/

set_option autoImplicit false

namespace GuardedThings

/-- The feature with the signs of all zeros in its properties dropped. -/
def Feature.withoutZeroSigns (f : Feature) : Feature :=
  { f with
    properties := f.properties.map Json.membersWithoutZeroSigns
    desiredProperties := f.desiredProperties.map Json.membersWithoutZeroSigns }

namespace Thing

/-- The thing with the signs of all zeros in its attributes and features dropped. -/
def withoutZeroSigns (t : Thing) : Thing :=
  { t with
    attributes := t.attributes.map Json.membersWithoutZeroSigns
    features := t.features.map (Dict.mapValues fun _ f => f.withoutZeroSigns) }

/-- Whether two things differ at most in the signs of zeros. -/
def agrees (t u : Thing) : Bool := t.withoutZeroSigns = u.withoutZeroSigns

end Thing

end GuardedThings
