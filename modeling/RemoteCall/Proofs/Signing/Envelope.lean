import RemoteCall.Proofs.Outcome
import RemoteCall.Proofs.Signing.Digest
import RemoteCall.Signing.Envelope
import RemoteCall.Value.Wire

/-!
# What an envelope keeps

An envelope keeps what its payload was decoded to, and answers from that when it
is opened again.  However an envelope was come by, what it keeps was decoded from
its own payload, and only after the signature was checked.  Opening it therefore
comes to the same whether anything was kept or not.

This is shown for a shelf of envelopes that are signed, put together, read, copied,
checked and opened in any order.  Whatever is done, an envelope on the shelf keeps its
key, its signature and its payload, and so what comes of opening it never changes.
-/

namespace RemoteCall.Envelope

variable {α : Type} [Json.Wire α] {envelope : Envelope α} {value : α}

omit [Json.Wire α] in
theorem verify_signBytes (seed payload : List UInt8) :
    (signBytes (.ofSeed seed) payload : Envelope α).verify =
      Ed25519.ownVerified Digest.ofBytesList seed payload :=
  SigningKey.verify_sign_ofSeed seed payload

/-- What is kept is what the signed payload decodes to. -/
def Genuine (envelope : Envelope α) : Prop :=
  ∀ value, envelope.opened = some value →
    envelope.verify ∧ Codec.decode envelope.payload = .ok value

/-- Opening as if nothing was kept. -/
def openAnew (envelope : Envelope α) : Except EnvelopeError α :=
  if envelope.verify then (Codec.decode envelope.payload).mapError .codec
  else .error .invalidSignature

theorem genuine_ofParts (signer : VerifyKey) (signature payload : List UInt8) :
    Genuine (.ofParts signer signature payload : Envelope α) :=
  fun _ hopened => nomatch hopened

theorem Genuine.openPayload (hgenuine : envelope.Genuine) : envelope.openPayload.2.Genuine := by
  cases hkept : envelope.opened with
  | some value => simpa only [Envelope.openPayload, hkept] using hgenuine
  | none =>
      by_cases hverify : envelope.verify
      · cases hdecode : (Codec.decode envelope.payload : Except CodecError α) with
        | error cause =>
            simpa only [Envelope.openPayload, hkept, hverify, if_true, hdecode] using hgenuine
        | ok decoded =>
            simp only [Envelope.openPayload, hkept, hverify, if_true, hdecode]
            intro value hopened
            cases hopened
            exact ⟨hverify, hdecode⟩
      · simpa [Envelope.openPayload, hkept, hverify] using hgenuine

theorem Obtainable.genuine (hobtainable : envelope.Obtainable) : envelope.Genuine := by
  induction hobtainable with
  | ofParts signer signature payload => exact genuine_ofParts signer signature payload
  | opened _ ih => exact ih.openPayload
  | copied _ _ => exact genuine_ofParts _ _ _

theorem Genuine.openPayload_fst (hgenuine : envelope.Genuine) :
    envelope.openPayload.1 = envelope.openAnew := by
  cases hkept : envelope.opened with
  | some value =>
      obtain ⟨hverify, hdecode⟩ := hgenuine value hkept
      simp only [Envelope.openPayload, hkept, openAnew, hverify, if_true, hdecode]
      rfl
  | none =>
      by_cases hverify : envelope.verify
      · simp only [Envelope.openPayload, hkept, openAnew, hverify, if_true]
        cases (Codec.decode envelope.payload : Except CodecError α) <;> rfl
      · simp [Envelope.openPayload, hkept, openAnew, hverify]

theorem openAnew_eq_ok_iff :
    envelope.openAnew = .ok value ↔
      envelope.verify ∧ Codec.decode envelope.payload = .ok value := by
  rw [openAnew]
  by_cases hverify : envelope.verify
  · simp only [hverify, if_true, Outcome.mapError_eq_ok_iff, true_and]
  · simp [hverify]

theorem openAnew_of_not_verify (hverify : ¬ envelope.verify) :
    envelope.openAnew = .error .invalidSignature := by
  rw [openAnew, if_neg hverify]

theorem openAnew_eq_invalidSignature_iff :
    envelope.openAnew = .error .invalidSignature ↔ ¬ envelope.verify := by
  refine ⟨?_, openAnew_of_not_verify⟩
  intro hopen hverify
  rw [openAnew, if_pos hverify, Outcome.mapError_eq_error_iff] at hopen
  obtain ⟨cause, -, hcause⟩ := hopen
  cases hcause

theorem openAnew_eq_codec_iff {cause : CodecError} :
    envelope.openAnew = .error (.codec cause) ↔
      envelope.verify ∧
        (Codec.decode envelope.payload : Except CodecError α) = .error cause := by
  by_cases hverify : envelope.verify
  · rw [openAnew, if_pos hverify, Outcome.mapError_eq_error_iff, and_iff_right hverify]
    simp
  · rw [openAnew_of_not_verify hverify]
    simp [hverify]

/-! ## Outcomes of opening -/

/-- Opening comes to what the signature and the payload say, whatever is kept. -/
structure OpensAnew (envelope : Envelope α) : Prop where
  ok_iff : ∀ value, envelope.openPayload.1 = .ok value ↔
    envelope.verify ∧ Codec.decode envelope.payload = .ok value
  invalidSignature_iff :
    envelope.openPayload.1 = .error .invalidSignature ↔ ¬ envelope.verify
  codec_iff : ∀ cause, envelope.openPayload.1 = .error (.codec cause) ↔
    envelope.verify ∧ (Codec.decode envelope.payload : Except CodecError α) = .error cause

theorem Genuine.opensAnew (hgenuine : envelope.Genuine) : envelope.OpensAnew where
  ok_iff value := by rw [hgenuine.openPayload_fst, openAnew_eq_ok_iff]
  invalidSignature_iff := by
    rw [hgenuine.openPayload_fst, openAnew_eq_invalidSignature_iff]
  codec_iff cause := by rw [hgenuine.openPayload_fst, openAnew_eq_codec_iff]

/-! ## What stays -/

omit [Json.Wire α] in
/-- Two envelopes are the same but for what they keep. -/
structure SameParts (left right : Envelope α) : Prop where
  signer : right.signer = left.signer
  signature : right.signature = left.signature
  payload : right.payload = left.payload

namespace SameParts

variable {left middle right : Envelope α}

omit [Json.Wire α] in
theorem refl (envelope : Envelope α) : SameParts envelope envelope := ⟨rfl, rfl, rfl⟩

omit [Json.Wire α] in
theorem trans (hfirst : SameParts left middle) (hsecond : SameParts middle right) :
    SameParts left right where
  signer := hsecond.signer.trans hfirst.signer
  signature := hsecond.signature.trans hfirst.signature
  payload := hsecond.payload.trans hfirst.payload

omit [Json.Wire α] in
theorem verify_eq (hparts : SameParts left right) : right.verify = left.verify := by
  rw [verify, verify, hparts.signer, hparts.signature, hparts.payload]

theorem openAnew_eq (hparts : SameParts left right) : right.openAnew = left.openAnew := by
  rw [openAnew, openAnew, hparts.verify_eq, hparts.payload]

end SameParts

omit [Json.Wire α] in
theorem sameParts_copy (envelope : Envelope α) : SameParts envelope envelope.copy :=
  ⟨rfl, rfl, rfl⟩

theorem sameParts_openPayload (envelope : Envelope α) :
    SameParts envelope envelope.openPayload.2 := by
  rw [openPayload]
  split
  · exact .refl envelope
  · split
    · split
      · exact ⟨rfl, rfl, rfl⟩
      · exact .refl envelope
    · exact .refl envelope

/-! ## Envelopes on a shelf -/

/-- What is done with the envelopes on a shelf, which are named by their places. -/
inductive Request (α : Type) where
  | sign (key : SigningKey) (payload : α)
  | ofParts (signer : VerifyKey) (signature payload : List UInt8)
  /-- Read an envelope from the wire. -/
  | read (json : Json)
  | copy (place : Nat)
  | verify (place : Nat)
  | openAt (place : Nat)

/-- The shelf after one request.  A new envelope goes to its end. -/
def handle (shelf : List (Envelope α)) : Request α → List (Envelope α)
  | .sign key payload => shelf ++ (sign key payload).toOption.toList
  | .ofParts signer signature payload => shelf ++ [ofParts signer signature payload]
  | .read json => shelf ++ (Json.ofJson? json : Option (Envelope α)).toList
  | .copy place => shelf ++ (shelf[place]?.map copy).toList
  | .verify _ => shelf
  | .openAt place => shelf.modify place fun envelope => envelope.openPayload.2

def handleAll (requests : List (Request α)) (shelf : List (Envelope α)) :
    List (Envelope α) :=
  requests.foldl handle shelf

variable {shelf : List (Envelope α)}

theorem obtainable_sign {key : SigningKey} {payload : α}
    (hsign : sign key payload = .ok envelope) : envelope.Obtainable := by
  rw [sign] at hsign
  split at hsign
  · cases hsign
  · cases hsign
    exact .ofParts _ _ _

/-- Every envelope that a request leaves on the shelf can be come by, if those before
could. -/
theorem obtainable_handle (hshelf : ∀ envelope ∈ shelf, envelope.Obtainable)
    (request : Request α) : ∀ envelope ∈ handle shelf request, envelope.Obtainable := by
  cases request with
  | sign key payload =>
      apply List.forall_mem_append.mpr ⟨hshelf, ?_⟩
      intro envelope hmem
      cases hsign : sign key payload with
      | error cause =>
          rw [hsign] at hmem
          cases hmem
      | ok signed =>
          rw [hsign] at hmem
          cases List.mem_singleton.mp hmem
          exact obtainable_sign hsign
  | ofParts signer signature payload =>
      apply List.forall_mem_append.mpr ⟨hshelf, ?_⟩
      exact List.forall_mem_singleton.mpr (.ofParts signer signature payload)
  | read json =>
      apply List.forall_mem_append.mpr ⟨hshelf, ?_⟩
      intro envelope hmem
      exact obtainable_of_ofJson? (Option.mem_toList.mp hmem)
  | copy place =>
      apply List.forall_mem_append.mpr ⟨hshelf, ?_⟩
      intro envelope hmem
      obtain ⟨original, hplace, rfl⟩ := Option.map_eq_some_iff.mp (Option.mem_toList.mp hmem)
      exact .copied (hshelf original (List.mem_of_getElem? hplace))
  | verify place => exact hshelf
  | openAt place =>
      intro envelope hmem
      obtain ⟨other, hother⟩ := List.getElem?_of_mem hmem
      rw [handle, List.getElem?_modify] at hother
      obtain ⟨original, hplace, rfl⟩ := Option.map_eq_some_iff.mp hother
      have horiginal := hshelf original (List.mem_of_getElem? hplace)
      by_cases hhere : place = other
      · rw [if_pos hhere]
        exact .opened horiginal
      · rw [if_neg hhere]
        exact horiginal

/-- An envelope on the shelf stays in its place, with its parts as they are. -/
theorem sameParts_handle {place : Nat} (hplace : shelf[place]? = some envelope)
    (request : Request α) :
    ∃ later, (handle shelf request)[place]? = some later ∧ SameParts envelope later := by
  have hkept : ∀ new : List (Envelope α), (shelf ++ new)[place]? = some envelope := by
    intro new
    rw [List.getElem?_append_left (List.getElem?_eq_some_iff.mp hplace).1]
    exact hplace
  cases request with
  | sign key payload => exact ⟨envelope, hkept _, .refl envelope⟩
  | ofParts signer signature payload => exact ⟨envelope, hkept _, .refl envelope⟩
  | read json => exact ⟨envelope, hkept _, .refl envelope⟩
  | copy other => exact ⟨envelope, hkept _, .refl envelope⟩
  | verify other => exact ⟨envelope, hplace, .refl envelope⟩
  | openAt other =>
      rw [handle, List.getElem?_modify, hplace, Option.map_eq_map, Option.map_some]
      by_cases hhere : other = place
      · rw [if_pos hhere]
        exact ⟨envelope.openPayload.2, rfl, sameParts_openPayload envelope⟩
      · rw [if_neg hhere]
        exact ⟨envelope, rfl, .refl envelope⟩

theorem obtainable_handleAll (requests : List (Request α))
    (hshelf : ∀ envelope ∈ shelf, envelope.Obtainable) :
    ∀ envelope ∈ handleAll requests shelf, envelope.Obtainable := by
  induction requests generalizing shelf with
  | nil => exact hshelf
  | cons request rest ih => exact ih (obtainable_handle hshelf request)

theorem sameParts_handleAll (requests : List (Request α)) {place : Nat}
    (hplace : shelf[place]? = some envelope) :
    ∃ later, (handleAll requests shelf)[place]? = some later ∧ SameParts envelope later := by
  induction requests generalizing shelf envelope with
  | nil => exact ⟨envelope, hplace, .refl envelope⟩
  | cons request rest ih =>
      obtain ⟨next, hnext, hparts⟩ := sameParts_handle hplace request
      obtain ⟨later, hlater, hrest⟩ := ih hnext
      exact ⟨later, hlater, hparts.trans hrest⟩

/-- Whatever was done with the envelopes of a shelf, what one of them keeps was decoded
from its own payload under a signature that holds, and opening it comes to what signature
and payload say.  Opening and copying leave its parts alone, and whatever is done after
that, it is there with the same parts and opens in the same way. -/
theorem opensAnew_of_handleAll {requests : List (Request α)} {place : Nat}
    (hplace : (handleAll requests [])[place]? = some envelope) :
    envelope.Genuine ∧ envelope.OpensAnew ∧
      SameParts envelope envelope.openPayload.2 ∧ SameParts envelope envelope.copy ∧
      ∀ more, ∃ later, (handleAll more (handleAll requests []))[place]? = some later ∧
        SameParts envelope later ∧ later.openPayload.1 = envelope.openPayload.1 := by
  have hobtainable : ∀ envelope ∈ handleAll requests ([] : List (Envelope α)),
      envelope.Obtainable := obtainable_handleAll requests nofun
  have hgenuine := (hobtainable envelope (List.mem_of_getElem? hplace)).genuine
  refine ⟨hgenuine, hgenuine.opensAnew, sameParts_openPayload envelope,
    sameParts_copy envelope, ?_⟩
  intro more
  obtain ⟨later, hlater, hparts⟩ := sameParts_handleAll more hplace
  have hlaterGenuine :=
    (obtainable_handleAll more hobtainable later (List.mem_of_getElem? hlater)).genuine
  refine ⟨later, hlater, hparts, ?_⟩
  rw [hlaterGenuine.openPayload_fst, hgenuine.openPayload_fst, hparts.openAnew_eq]

/-! ## A note that was opened, and a forged one -/

/-- An envelope is opened, one with another signature is opened, and the first is copied. -/
def openAndForge (signer : VerifyKey) (signature forged payload : List UInt8) :
    List (Request α) :=
  [.ofParts signer signature payload, .openAt 0, .ofParts signer forged payload, .openAt 1,
    .copy 0]

theorem handleAll_openAndForge (signer : VerifyKey)
    (signature forged payload : List UInt8) :
    handleAll (openAndForge signer signature forged payload) ([] : List (Envelope α)) =
      [(ofParts signer signature payload).openPayload.2,
        (ofParts signer forged payload).openPayload.2,
        (ofParts signer signature payload).openPayload.2.copy] := rfl

end RemoteCall.Envelope

namespace RemoteCall

/-- The key that the note is signed with. -/
def noteKey : SigningKey := .ofSeed (List.replicate 32 5)

/-- The note says that there is nothing. -/
def noteBytes : List UInt8 := "\x7b\"type\":\"none\"\x7d".toUTF8.toList

def note : Envelope Value := .signBytes noteKey noteBytes

/-- The note without its signature. -/
def forgedNote : Envelope Value := .ofParts noteKey.verifyKey [] noteBytes

set_option maxRecDepth 100000 in
theorem verify_note : note.verify := by
  rw [note, noteKey, Envelope.verify_signBytes]
  decide +kernel

set_option maxRecDepth 100000 in
theorem not_verify_forgedNote : ¬ forgedNote.verify := by decide +kernel

/-- Whether nothing was decoded, which is a value too. -/
def isNothing : Except CodecError Value → Bool
  | .ok .none => true
  | _ => false

theorem eq_of_isNothing {decoded : Except CodecError Value} (hnothing : isNothing decoded) :
    decoded = .ok .none := by
  rw [isNothing.eq_def] at hnothing
  split at hnothing
  · rfl
  · cases hnothing

set_option maxRecDepth 100000 in
theorem decode_noteBytes : (Codec.decode noteBytes : Except CodecError Value) = .ok .none :=
  eq_of_isNothing (by decide +kernel)

/-- What is done with the two notes. -/
def noteRequests : List (Envelope.Request Value) :=
  Envelope.openAndForge noteKey.verifyKey (noteKey.sign noteBytes) [] noteBytes

theorem noteRequests_handled :
    Envelope.handleAll noteRequests [] =
      [note.openPayload.2, forgedNote.openPayload.2, note.openPayload.2.copy] :=
  Envelope.handleAll_openAndForge noteKey.verifyKey (noteKey.sign noteBytes) [] noteBytes

/-- Opened again, the note says the same, and the forged one is refused again. -/
theorem Envelope.opensAnew_of_handleAll_note :
    ((Envelope.handleAll noteRequests [])[0]? = some note.openPayload.2 ∧
      note.openPayload.2.openPayload.1 = .ok .none) ∧
    (Envelope.handleAll noteRequests [])[1]? = some forgedNote.openPayload.2 ∧
      forgedNote.openPayload.2.openPayload.1 = .error .invalidSignature := by
  have hnote : (handleAll noteRequests [])[0]? = some note.openPayload.2 := by
    rw [noteRequests_handled]
    rfl
  have hforged : (handleAll noteRequests [])[1]? = some forgedNote.openPayload.2 := by
    rw [noteRequests_handled]
    rfl
  have hkept := sameParts_openPayload note
  have hforgedKept := sameParts_openPayload forgedNote
  refine ⟨⟨hnote, ?_⟩, hforged, ?_⟩
  · apply ((opensAnew_of_handleAll hnote).2.1.ok_iff .none).mpr
    rw [hkept.verify_eq, hkept.payload]
    exact ⟨verify_note, decode_noteBytes⟩
  · apply (opensAnew_of_handleAll hforged).2.1.invalidSignature_iff.mpr
    rw [hforgedKept.verify_eq]
    exact not_verify_forgedNote

end RemoteCall
