import GuardedThings.EntityTag

/-!
# Headers

The headers that travel with commands and responses. A response keeps only the
correlation id of its command and is given the tag of the entity.
-/

set_option autoImplicit false

namespace GuardedThings

/-- The headers of a command or a response. -/
structure Headers where
  /-- Ties a command to its event and its response. -/
  correlationId : Option String := none
  /-- Apply only if the current tag matches. -/
  ifMatch : Option TagMatchers := none
  /-- Apply only if the current tag does not match. -/
  ifNoneMatch : Option TagMatchers := none
  /-- The tag of the entity after the command. -/
  etag : Option EntityTag := none
  /-- Metadata for the event. -/
  metadata : Option Json := none
deriving DecidableEq

namespace Headers

/-- No headers. -/
def empty : Headers := {}

/-- The headers of the response to a command with these headers. -/
def forResponse (h : Headers) : Headers := { correlationId := h.correlationId }

/-- The headers with a tag. -/
def withTag (h : Headers) (tag : EntityTag) : Headers := { h with etag := some tag }

/-- The fields of headers. -/
def fields {σ : Type} [Source σ] : Fields σ Headers :=
  ((Fields.optional "correlation-id" Wire.decode).and <|
    (Fields.optional "if-match" Wire.decode).and <|
    (Fields.optional "if-none-match" Wire.decode).and <|
    (Fields.optional "etag" Wire.decode).and (Fields.optional "put-metadata" Wire.decode)).map
    fun (correlationId, ifMatch, ifNoneMatch, etag, metadata) =>
      { correlationId, ifMatch, ifNoneMatch, etag, metadata }

instance : Wire Headers where
  encode h := Json.ofFields
    [("correlation-id", h.correlationId.map Wire.encode), ("etag", h.etag.map Wire.encode),
      ("if-match", h.ifMatch.map Wire.encode), ("if-none-match", h.ifNoneMatch.map Wire.encode),
      ("put-metadata", h.metadata)]
  decode := fields.decode

end Headers

end GuardedThings
