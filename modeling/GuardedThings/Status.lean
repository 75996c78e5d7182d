/-!
# Response statuses

The statuses a response can have, with their numbers.
-/

set_option autoImplicit false

namespace GuardedThings

/-- The status of a response. -/
inductive Status where
  | ok
  | created
  | noContent
  | notModified
  | badRequest
  | forbidden
  | notFound
  | conflict
  | preconditionFailed
  | payloadTooLarge
  | internalServerError
deriving DecidableEq

namespace Status

/-- The name of a status. -/
def name : Status → String
  | ok => "Ok"
  | created => "Created"
  | noContent => "NoContent"
  | notModified => "NotModified"
  | badRequest => "BadRequest"
  | forbidden => "Forbidden"
  | notFound => "NotFound"
  | conflict => "Conflict"
  | preconditionFailed => "PreconditionFailed"
  | payloadTooLarge => "PayloadTooLarge"
  | internalServerError => "InternalServerError"

/-- The number of a status. -/
def code : Status → Nat
  | ok => 200
  | created => 201
  | noContent => 204
  | notModified => 304
  | badRequest => 400
  | forbidden => 403
  | notFound => 404
  | conflict => 409
  | preconditionFailed => 412
  | payloadTooLarge => 413
  | internalServerError => 500

/-- All statuses. -/
def all : List Status :=
  [ok, created, noContent, notModified, badRequest, forbidden, notFound, conflict,
    preconditionFailed, payloadTooLarge, internalServerError]

/-- The status with the given number. -/
def ofCode? (n : Nat) : Option Status := all.find? (fun s => s.code = n)

/-- Whether the request was fulfilled: a number below 400. -/
def isSuccess (s : Status) : Bool := s.code < 400

end Status

end GuardedThings
