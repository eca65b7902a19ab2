import Tamga.ServerResponses

namespace Tamga.ErrorDocuments

open Library.Prelude
open Library.Serde
open Tamga.Dependencies
open Tamga.Models
open Tamga.ApiErrors
open Tamga.Transport
open Tamga.ServerResponses

variable {J : SerdeJson} {R : Reqwest}

section Shapes

def Once (name : String) (kind : Json → Prop) (members : Members) : Prop :=
  ∃ item, occurrences name members = [item] ∧ kind item

def AtMostOnce (name : String) (kind : Json → Prop) (members : Members) : Prop :=
  occurrences name members = [] ∨ Once name kind members

def OrNull (kind : Json → Prop) (item : Json) : Prop := item = .null ∨ kind item

def IsText (item : Json) : Prop := ∃ text, item = .string (some text)

def IsStatus (item : Json) : Prop :=
  IsText item ∨ ∃ n i, item = .number n ∧ n.toInt? = some i ∧ 0 ≤ i ∧ i < 18446744073709551616

/-- Any value whose strings and numbers `serde_json::Value` can hold. -/
def IsValue (J : SerdeJson) (item : Json) : Prop := (J.readValue item).isSome

/-- A pointer, in an object or as the one item of an array. -/
inductive IsSource : Json → Prop
  | object {members : Members} (keys : ∀ member ∈ members, member.1.isSome)
      (pointer : AtMostOnce "pointer" (OrNull IsText) members) : IsSource (.object members)
  | array {pointer : Json} (hpointer : OrNull IsText pointer) : IsSource (.array [pointer])

/-- The JSON values that read as an error: objects, and arrays of the members in
the order of the fields. -/
inductive IsError (J : SerdeJson) : Json → Prop
  | object {members : Members} (keys : ∀ member ∈ members, member.1.isSome)
      (id : Once "id" IsText members) (status : Once "status" IsStatus members)
      (code : Once "code" IsText members) (title : AtMostOnce "title" IsText members)
      (detail : AtMostOnce "detail" IsText members)
      (source : AtMostOnce "source" (OrNull IsSource) members)
      («meta» : AtMostOnce "meta" (OrNull (IsValue J)) members) : IsError J (.object members)
  | array {id status code title detail source : Json} {rest : List Json} (hid : IsText id)
      (hstatus : IsStatus status) (hcode : IsText code) (htitle : IsText title)
      (hdetail : IsText detail) (hsource : OrNull IsSource source)
      (hrest : rest = [] ∨ ∃ «meta», rest = [«meta»] ∧ OrNull (IsValue J) «meta») :
      IsError J (.array (id :: status :: code :: title :: detail :: source :: rest))

structure IsDocument (J : SerdeJson) (members : Members) : Prop where
  keys : ∀ member ∈ members, member.1.isSome
  errors : ∃ items, occurrences "errors" members = [.array items] ∧
    ∀ item ∈ items, IsError J item

end Shapes

section Decoding

theorem string_isSome_iff {item : Json} : (string.deserialize item).isSome ↔ IsText item := by
  cases item with
  | string token => cases token <;> simp [string, IsText]
  | _ => simp [string, IsText]

theorem option_isSome_iff {α : Type} {inner : Deserialize α} {kind : Json → Prop}
    (h : ∀ item, (inner.deserialize item).isSome ↔ kind item) (item : Json) :
    ((option inner).deserialize item).isSome ↔ OrNull kind item := by
  cases item <;> simp [option, OrNull, ← h]

theorem status_isSome_iff (item : Json) :
    (deserializeStatus.deserialize item).isSome ↔ IsStatus item := by
  cases item with
  | string token => cases token <;> simp [deserializeStatus, custom, IsStatus, IsText]
  | number n =>
      cases hn : n.toInt? with
      | none => simp [deserializeStatus, custom, IsStatus, IsText, hn]
      | some i =>
          by_cases hi : 0 ≤ i ∧ i < 18446744073709551616 <;>
            simp [deserializeStatus, custom, IsStatus, IsText, hn, hi]
  | _ => simp [deserializeStatus, custom, IsStatus, IsText]

theorem value_isSome_iff (item : Json) :
    ((value J).deserialize item).isSome ↔ IsValue J item := Iff.rfl

variable {α β : Type} {name : String} {inner : Deserialize α} {kind : Json → Prop}
  {members : Members}

theorem once_iff (h : ∀ item, (inner.deserialize item).isSome ↔ kind item) :
    (readField name inner none members).isSome ↔ Once name kind members := by
  simp [readField_isSome_iff, Once, h]

theorem atMostOnce_iff (h : ∀ item, (inner.deserialize item).isSome ↔ kind item)
    {absent : α} :
    (readField name inner (some absent) members).isSome ↔ AtMostOnce name kind members := by
  simp [readField_isSome_iff, AtMostOnce, Once, h]

theorem source_isSome_iff (item : Json) :
    (jsonApiErrorSource.deserialize item).isSome ↔ IsSource item := by
  have hpointer : ∀ item, ((option string).deserialize item).isSome ↔ OrNull IsText item :=
    option_isSome_iff fun _ => string_isSome_iff
  constructor
  · intro h
    cases item with
    | object members =>
        rw [jsonApiErrorSource, struct_object_isSome_iff, Fields.field,
          Fields.next_ofMembers_isSome_iff] at h
        exact .object h.1 ((atMostOnce_iff hpointer).mp h.2.2)
    | array items =>
        rw [jsonApiErrorSource, struct_array_isSome_iff, Fields.leaves_field_iff] at h
        obtain ⟨pointer, hread, hitems⟩ := h
        obtain rfl := Fields.leaves_done_iff.mp hitems
        exact .array ((hpointer pointer).mp hread)
    | _ => cases h
  · intro h
    cases h with
    | object keys pointer =>
        rw [jsonApiErrorSource, struct_object_isSome_iff, Fields.field,
          Fields.next_ofMembers_isSome_iff]
        exact ⟨keys, rfl, (atMostOnce_iff hpointer).mpr pointer⟩
    | @array pointer h =>
        rw [jsonApiErrorSource, struct_array_isSome_iff, Fields.leaves_field_iff]
        exact ⟨pointer, (hpointer pointer).mpr h, Fields.leaves_done_iff.mpr rfl⟩

theorem error_object_isSome_iff {members : Members} :
    ((jsonApiError J).deserialize (.object members)).isSome ↔ IsError J (.object members) := by
  have hsource := option_isSome_iff source_isSome_iff
  have hmeta := option_isSome_iff (value_isSome_iff (J := J))
  simp only [jsonApiError, struct_object_isSome_iff, Fields.field, Fields.fieldDefault,
    Fields.next_ofMembers_isSome_iff]
  constructor
  · rintro ⟨keys, ⟨⟨⟨⟨⟨⟨-, id⟩, status⟩, code⟩, title⟩, detail⟩, source⟩, «meta»⟩
    exact .object keys ((once_iff fun _ => string_isSome_iff).mp id)
      ((once_iff status_isSome_iff).mp status) ((once_iff fun _ => string_isSome_iff).mp code)
      ((atMostOnce_iff fun _ => string_isSome_iff).mp title)
      ((atMostOnce_iff fun _ => string_isSome_iff).mp detail)
      ((atMostOnce_iff hsource).mp source) ((atMostOnce_iff hmeta).mp «meta»)
  · rintro (⟨keys, id, status, code, title, detail, source, «meta»⟩)
    exact ⟨keys, ⟨⟨⟨⟨⟨⟨rfl, (once_iff fun _ => string_isSome_iff).mpr id⟩,
      (once_iff status_isSome_iff).mpr status⟩, (once_iff fun _ => string_isSome_iff).mpr code⟩,
      (atMostOnce_iff fun _ => string_isSome_iff).mpr title⟩,
      (atMostOnce_iff fun _ => string_isSome_iff).mpr detail⟩,
      (atMostOnce_iff hsource).mpr source⟩, (atMostOnce_iff hmeta).mpr «meta»⟩

theorem error_array_isSome_iff {items : List Json} :
    ((jsonApiError J).deserialize (.array items)).isSome ↔ IsError J (.array items) := by
  have hsource := option_isSome_iff source_isSome_iff
  have hmeta := option_isSome_iff (value_isSome_iff (J := J))
  simp only [jsonApiError, struct_array_isSome_iff, Fields.leaves_field_iff,
    Fields.leaves_fieldDefault_iff, Fields.leaves_done_iff, string_isSome_iff, status_isSome_iff,
    hsource, hmeta, reduceCtorEq, false_and, false_or, true_and]
  constructor
  · rintro (⟨source, hsource, detail, hdetail, title, htitle, code, hcode, status, hstatus, id,
      hid, rfl⟩ | ⟨«meta», hmeta, source, hsource, detail, hdetail, title, htitle, code, hcode,
      status, hstatus, id, hid, rfl⟩)
    · exact .array hid hstatus hcode htitle hdetail hsource (Or.inl rfl)
    · exact .array hid hstatus hcode htitle hdetail hsource (Or.inr ⟨«meta», rfl, hmeta⟩)
  · rintro (_ | ⟨hid, hstatus, hcode, htitle, hdetail, hsource, rfl | ⟨«meta», rfl, hmeta⟩⟩)
    · exact Or.inl ⟨_, hsource, _, hdetail, _, htitle, _, hcode, _, hstatus, _, hid, rfl⟩
    · exact Or.inr ⟨_, hmeta, _, hsource, _, hdetail, _, htitle, _, hcode, _, hstatus, _, hid,
        rfl⟩

theorem error_isSome_iff (item : Json) :
    ((jsonApiError J).deserialize item).isSome ↔ IsError J item := by
  cases item with
  | object members => exact error_object_isSome_iff
  | array items => exact error_array_isSome_iff
  | _ => exact ⟨nofun, nofun⟩

theorem document_isSome_iff {members : Members} :
    ((jsonApiErrorDocument J).deserialize (.object members)).isSome ↔ IsDocument J members := by
  rw [jsonApiErrorDocument, struct_object_isSome_iff, Fields.field,
    Fields.next_ofMembers_isSome_iff, readField_isSome_iff]
  constructor
  · rintro ⟨keys, -, ⟨-, ⟨⟩⟩ | ⟨item, hitem, hread⟩⟩
    refine ⟨keys, ?_⟩
    cases item with
    | array items =>
        refine ⟨items, hitem, fun error herror => ?_⟩
        exact (error_isSome_iff error).mp (vec_isSome_iff.mp hread error herror)
    | _ => cases hread
  · rintro ⟨keys, items, hitems, herrors⟩
    refine ⟨keys, rfl, Or.inr ⟨.array items, hitems, vec_isSome_iff.mpr ?_⟩⟩
    exact fun error herror => (error_isSome_iff error).mpr (herrors error herror)

end Decoding

section Codes

/-- The code that was sent is reported, and classified as what it is. -/
structure Reported (sent : String) (error : TamgaError J R) : Prop where
  code : error.code = some sent
  fingerprintTaken : error.isFingerprintTaken = true ↔ sent = "FINGERPRINT_TAKEN"
  notFound : error.isNotFound = true ↔ sent = "NOT_FOUND"
  limitExceeded : error.limitExceeded = LimitExceededCode.parse sent
  licenseAuthFailure : error.licenseAuthFailure = LicenseAuthCode.parse sent

theorem reported_fromJsonApiError (err : JsonApiError J) :
    Reported err.code (TamgaError.fromJsonApiError err : TamgaError J R) where
  code := TamgaError.code_fromJsonApiError err
  fingerprintTaken := TamgaError.isFingerprintTaken_fromJsonApiError err
  notFound := TamgaError.isNotFound_fromJsonApiError err
  limitExceeded := by rw [TamgaError.limitExceeded, TamgaError.code_fromJsonApiError]; rfl
  licenseAuthFailure := by
    rw [TamgaError.licenseAuthFailure, TamgaError.code_fromJsonApiError]
    rfl

theorem code_of_deserialize {members : Members} {sent : String} {err : JsonApiError J}
    (hread : (jsonApiError J).deserialize (.object members) = some err)
    (hcode : (some "code", .string (some sent)) ∈ members) : err.code = sent := by
  rw [jsonApiError, struct_object_iff] at hread
  obtain ⟨_, _, hmeta, -, rfl⟩ := Fields.next_ofMembers_iff.mp hread.2
  obtain ⟨_, _, hsource, -, rfl⟩ := Fields.next_ofMembers_iff.mp hmeta
  obtain ⟨_, _, hdetail, -, rfl⟩ := Fields.next_ofMembers_iff.mp hsource
  obtain ⟨_, _, htitle, -, rfl⟩ := Fields.next_ofMembers_iff.mp hdetail
  obtain ⟨_, code, hfield, hvalue, rfl⟩ := Fields.next_ofMembers_iff.mp htitle
  obtain ⟨_, _, hstatus, -, rfl⟩ := Fields.next_ofMembers_iff.mp hfield
  obtain ⟨_, _, hdone, -, rfl⟩ := Fields.next_ofMembers_iff.mp hstatus
  obtain rfl := Option.some.inj hdone
  exact Option.some.inj (occurrences_eq_of_readField hvalue hcode).2.symm

theorem apiError_of_document {response : Response} {members first : Members}
    {rest : List Json} {sent : String} (hstatus : response.status ≠ tooManyRequests)
    (hbody : response.body = some (.object members))
    (herrors : (some "errors", .array (.object first :: rest)) ∈ members)
    (hcode : (some "code", .string (some sent)) ∈ first) (h : IsDocument J members) :
    ∃ err : JsonApiError J, err.code = sent ∧ apiError J R response = .fromJsonApiError err := by
  obtain ⟨document, hdocument⟩ := Option.isSome_iff_exists.mp (document_isSome_iff.mpr h)
  have hread := hdocument
  rw [jsonApiErrorDocument, struct_object_iff] at hread
  obtain ⟨_, errors, hdone, hfield, rfl⟩ := Fields.next_ofMembers_iff.mp hread.2
  obtain rfl := Option.some.inj hdone
  have hitems := (occurrences_eq_of_readField hfield herrors).2
  simp only [vec, List.mapM_cons, Option.bind_eq_bind, Option.bind_eq_some_iff,
    Option.pure_def, Option.some.injEq] at hitems
  obtain ⟨err, herr, others, -, rfl⟩ := hitems
  refine ⟨err, code_of_deserialize herr hcode, ?_⟩
  rw [apiError, if_neg hstatus, hbody, Option.bind_some, hdocument]
  rfl

/-- A document that does not decode is replaced as a whole. -/
theorem code_apiError_of_not_document {response : Response} {members : Members}
    (hstatus : response.status ≠ tooManyRequests)
    (hbody : response.body = some (.object members)) (h : ¬IsDocument J members) :
    ∃ err : JsonApiError J, err.code = "UNKNOWN" ∧
      apiError J R response = .fromJsonApiError err := by
  have hnone : (jsonApiErrorDocument J).deserialize (.object members) = none := by
    rw [← document_isSome_iff, Option.not_isSome_iff_eq_none] at h
    exact h
  rw [apiError, if_neg hstatus, hbody, Option.bind_some, hnone]
  exact ⟨_, rfl, rfl⟩

/-- The code of the first error reaches the caller when the whole document, this
error and the others, has the shape that the decoder admits. -/
theorem code_reported_iff (J : SerdeJson) (R : Reqwest) {response : Response}
    {members first : Members} {rest : List Json} {sent : String}
    (hstatus : response.status ≠ tooManyRequests)
    (hbody : response.body = some (.object members))
    (herrors : (some "errors", .array (.object first :: rest)) ∈ members)
    (hcode : (some "code", .string (some sent)) ∈ first) :
    Reported sent (apiError J R response) ↔ sent = "UNKNOWN" ∨ IsDocument J members := by
  constructor
  · intro h
    by_contra hnot
    rw [not_or] at hnot
    obtain ⟨err, hunknown, herror⟩ := code_apiError_of_not_document (R := R) hstatus hbody hnot.2
    have hsent := h.code
    rw [herror, TamgaError.code_fromJsonApiError, hunknown] at hsent
    exact hnot.1 (Option.some.inj hsent).symm
  · intro h
    by_cases hdocument : IsDocument J members
    · obtain ⟨err, rfl, herror⟩ :=
        apiError_of_document (R := R) hstatus hbody herrors hcode hdocument
      rw [herror]
      exact reported_fromJsonApiError err
    · obtain rfl := h.resolve_right hdocument
      obtain ⟨err, hunknown, herror⟩ :=
        code_apiError_of_not_document (R := R) hstatus hbody hdocument
      rw [herror, ← hunknown]
      exact reported_fromJsonApiError err

theorem code_reported_recorded :
    Reported "FINGERPRINT_TAKEN" (apiError blankClient.json blankClient.reqwest
        ⟨409, [], some (errorDocument "FINGERPRINT_TAKEN")⟩) ↔
      "FINGERPRINT_TAKEN" = "UNKNOWN" ∨ IsDocument blankClient.json
        [(some "errors", .array [errorJson "FINGERPRINT_TAKEN"])] :=
  code_reported_iff blankClient.json blankClient.reqwest (by decide) rfl List.mem_cons_self
    (List.mem_cons_of_mem _ (List.mem_cons_of_mem _ List.mem_cons_self))

/-- The code of the first error is reported whatever else the document holds. -/
def NeverThrownAway (J : SerdeJson) (R : Reqwest) : Prop :=
  ∀ (response : Response) (members first : Members) (rest : List Json) (sent : String),
    response.isSuccess = false → response.status ≠ tooManyRequests →
      response.body = some (.object members) →
        (some "errors", .array (.object first :: rest)) ∈ members →
          (some "code", .string (some sent)) ∈ first → Reported sent (apiError J R response)

/-- An error with a null title, which is read unless it is there. -/
def nullTitle : Members :=
  [(some "code", textJson "FINGERPRINT_TAKEN"), (some "id", textJson "e1"),
    (some "status", textJson "409"), (some "title", .null)]

theorem not_neverThrownAway : ¬NeverThrownAway blankClient.json blankClient.reqwest := by
  intro h
  have hreported := h ⟨409, [], some (.object [(some "errors", .array [.object nullTitle])])⟩
    _ nullTitle [] "FINGERPRINT_TAKEN" (by decide) (by decide) rfl List.mem_cons_self
    List.mem_cons_self
  have hunknown : (apiError blankClient.json blankClient.reqwest
      ⟨409, [], some (.object [(some "errors", .array [.object nullTitle])])⟩).code =
        some "UNKNOWN" := rfl
  rw [hreported.code] at hunknown
  exact absurd hunknown (by decide)

end Codes

end Tamga.ErrorDocuments
