/-
# Live frames

How the provider writes the frame that ends a session (`terminal_from_end`, `end_frame`) and
how the consumer reads a frame (`parse_live_frame`).

A terminal is read with the reason and the code it was committed with exactly when it has an
error if and only if its reason is not a normal one, and the bounded message of the error has
no NUL character.
-/
import Mathlib.Data.Nat.Digits.Defs
import Trellis.Lib.Serde

namespace Live.Frames

open List Checked

/-! ## Terminals -/

/-- The codes of errors, on the wire as `as_str` has them. -/
inductive LiveErrorCode where
  | unsupportedProtocol | invalidRequest | invalidSubject | permissionDenied
  | authorizationExpired | authorizationRevoked | authorizationUnavailable | bindingChanged
  | resourceExhausted | openConflict | sessionNotFound | setupTimeout | controlConflict
  | controlGap | invalidCursor | invalidChallenge | staleControl | payloadTooLarge
  | concurrentEmit | closed | peerLost | disconnected | consumerSlow | deliveryGap
  | callbackFailed | sourceFailed | protocolError | cancelled | localShutdown
  | cleanupIncomplete
  deriving DecidableEq

def LiveErrorCode.asStr : LiveErrorCode → String
  | unsupportedProtocol => "unsupported_protocol"
  | invalidRequest => "invalid_request"
  | invalidSubject => "invalid_subject"
  | permissionDenied => "permission_denied"
  | authorizationExpired => "authorization_expired"
  | authorizationRevoked => "authorization_revoked"
  | authorizationUnavailable => "authorization_unavailable"
  | bindingChanged => "binding_changed"
  | resourceExhausted => "resource_exhausted"
  | openConflict => "open_conflict"
  | sessionNotFound => "session_not_found"
  | setupTimeout => "setup_timeout"
  | controlConflict => "control_conflict"
  | controlGap => "control_gap"
  | invalidCursor => "invalid_cursor"
  | invalidChallenge => "invalid_challenge"
  | staleControl => "stale_control"
  | payloadTooLarge => "payload_too_large"
  | concurrentEmit => "concurrent_emit"
  | closed => "closed"
  | peerLost => "peer_lost"
  | disconnected => "disconnected"
  | consumerSlow => "consumer_slow"
  | deliveryGap => "delivery_gap"
  | callbackFailed => "callback_failed"
  | sourceFailed => "source_failed"
  | protocolError => "protocol_error"
  | cancelled => "cancelled"
  | localShutdown => "local_shutdown"
  | cleanupIncomplete => "cleanup_incomplete"

/-- Why a session ended. -/
inductive LiveEndReason where
  | complete | cancelled | localShutdown | setupTimeout | peerLost | disconnected
  | authorizationLost | bindingChanged | consumerSlow | deliveryGap | sourceError
  | protocolError | resourceExhausted
  deriving DecidableEq

def LiveEndReason.asStr : LiveEndReason → String
  | complete => "complete"
  | cancelled => "cancelled"
  | localShutdown => "local_shutdown"
  | setupTimeout => "setup_timeout"
  | peerLost => "peer_lost"
  | disconnected => "disconnected"
  | authorizationLost => "authorization_lost"
  | bindingChanged => "binding_changed"
  | consumerSlow => "consumer_slow"
  | deliveryGap => "delivery_gap"
  | sourceError => "source_error"
  | protocolError => "protocol_error"
  | resourceExhausted => "resource_exhausted"

/-- `end_reason_for_code`. -/
def endReasonForCode : LiveErrorCode → LiveEndReason
  | .unsupportedProtocol | .invalidRequest | .invalidSubject | .openConflict
  | .controlConflict | .controlGap | .invalidCursor | .invalidChallenge | .staleControl
  | .protocolError | .sessionNotFound | .cleanupIncomplete => .protocolError
  | .permissionDenied | .authorizationExpired | .authorizationRevoked
  | .authorizationUnavailable => .authorizationLost
  | .bindingChanged => .bindingChanged
  | .resourceExhausted => .resourceExhausted
  | .setupTimeout => .setupTimeout
  | .payloadTooLarge | .concurrentEmit | .callbackFailed | .sourceFailed => .sourceError
  | .closed | .cancelled => .cancelled
  | .peerLost => .peerLost
  | .disconnected => .disconnected
  | .consumerSlow => .consumerSlow
  | .deliveryGap => .deliveryGap
  | .localShutdown => .localShutdown

/-- The error of an end; those of the provider carry no trace ID. -/
structure LiveStreamError where
  code : LiveErrorCode
  message : String
  deriving DecidableEq

/-- How a session ended, as the provider keeps it. -/
structure LiveEnd where
  reason : LiveEndReason
  error : Option LiveStreamError
  deriving DecidableEq

/-- The error of an end frame. -/
structure WireTerminalError where
  code : LiveErrorCode
  message : String
  traceId : Option String
  deriving DecidableEq

/-- How a session ended, as the end frame tells it. -/
structure WireTerminal where
  reason : LiveEndReason
  error : Option WireTerminalError
  deriving DecidableEq

/-- A message that is too long is cut after 512 characters. -/
def boundedMessage (message : String) : String :=
  if message.length ≤ 512 ∧ message.utf8ByteSize ≤ 2048 then message
  else String.ofList (message.toList.take 512)

def LiveEnd.complete : LiveEnd := ⟨.complete, none⟩

/-- The reason of an end follows from its code. -/
def providerFailure (code : LiveErrorCode) (message : String) : LiveEnd :=
  ⟨endReasonForCode code, some ⟨code, message⟩⟩

/-- The source failed, in a bounded message. -/
def sourceFailureEnd (message : String) : LiveEnd :=
  ⟨.sourceError, some ⟨.sourceFailed, boundedMessage message⟩⟩

/-- The message is bounded here, the pairing of reason and error is not checked. -/
def terminalFromEnd (theEnd : LiveEnd) : WireTerminal :=
  ⟨theEnd.reason, theEnd.error.map fun error => ⟨error.code, boundedMessage error.message, none⟩⟩

/-- A reason that carries no error. -/
def LiveEndReason.normal (reason : LiveEndReason) : Bool :=
  reason = .complete ∨ reason = .cancelled ∨ reason = .localShutdown

/-- Why a frame is not read; a format error names the field. -/
inductive FrameError where
  | bodyTooLarge
  | json
  | invalidFormat (field : List String)
  | invalidNonce (field : String)
  deriving DecidableEq

/-- The redaction bounds of a message. -/
def WireTerminalError.bounded (error : WireTerminalError) : Bool :=
  error.message.utf8ByteSize ≤ 2048 ∧ error.message.length ≤ 512 ∧ '\x00' ∉ error.message.toList

/-- An error, within its bounds, exactly when the reason is not normal. -/
def WireTerminal.validate (terminal : WireTerminal) : Except FrameError Unit :=
  match terminal.reason.normal, terminal.error with
  | true, none => .ok ()
  | false, some error =>
    if error.bounded then .ok () else .error (.invalidFormat ["terminal", "error", "message"])
  | _, _ => .error (.invalidFormat ["terminal"])

/-! ## Frames -/

variable {F Text : Type}

open Fields (required nullable optional)

/-- The discriminants of what a provider sends. -/
inductive LiveOfferKind where
  | offer | openError | controlAck | controlError | data | challenge | ending
  deriving DecidableEq

def liveOfferKind : Codec F LiveOfferKind :=
  .enum
    (fun | .offer => "offer" | .openError => "open-error" | .controlAck => "control-ack"
         | .controlError => "control-error" | .data => "data" | .challenge => "challenge"
         | .ending => "end")
    [.offer, .openError, .controlAck, .controlError, .data, .challenge, .ending]

/-- One value of the session. -/
structure LiveDataFrame (F : Type) where
  format : String
  kind : LiveOfferKind
  sessionId : String
  seq : U64
  value : Json.Value F

/-- A challenge, with the last sequence sent before it. -/
structure LiveChallengeFrame where
  format : String
  kind : LiveOfferKind
  (sessionId challengeId : String)
  lastSentSeq : U64

/-- The end, with the last sequence of the session. -/
structure LiveEndFrame where
  format : String
  kind : LiveOfferKind
  sessionId : String
  finalSeq : U64
  terminal : WireTerminal

/-- The frames a consumer tells apart. -/
inductive LiveFrame (F : Type) where
  | data (frame : LiveDataFrame F)
  | challenge (frame : LiveChallengeFrame)
  | ending (frame : LiveEndFrame)

def liveErrorCode : Codec F LiveErrorCode :=
  .enum LiveErrorCode.asStr ((List.range 30).map .ofNat)

def liveEndReason : Codec F LiveEndReason :=
  .enum LiveEndReason.asStr ((List.range 13).map .ofNat)

def wireTerminalError : Codec F WireTerminalError :=
  (Codec.object ((required "code" liveErrorCode).both ((required "message" .string).both
    (optional "traceId" .string true))) true).iso
    (fun ⟨a, b, c⟩ => ⟨a, b, c⟩) (fun ⟨a, b, c⟩ => ⟨a, b, c⟩)

def wireTerminal : Codec F WireTerminal :=
  (Codec.object ((required "reason" liveEndReason).both (nullable "error" wireTerminalError))
    true).iso (fun ⟨a, b⟩ => ⟨a, b⟩) (fun ⟨a, b⟩ => ⟨a, b⟩)

def liveDataFrame : Codec F (LiveDataFrame F) :=
  (Codec.object ((required "format" .string).both ((required "type" liveOfferKind).both
    ((required "sessionId" .string).both ((required "seq" .decimal).both
      (required "value" .value))))) true).iso
    (fun ⟨a, b, c, d, e⟩ => ⟨a, b, c, d, e⟩) (fun ⟨a, b, c, d, e⟩ => ⟨a, b, c, d, e⟩)

def liveChallengeFrame : Codec F LiveChallengeFrame :=
  (Codec.object ((required "format" .string).both ((required "type" liveOfferKind).both
    ((required "sessionId" .string).both ((required "challengeId" .string).both
      (required "lastSentSeq" .decimal))))) true).iso
    (fun ⟨a, b, c, d, e⟩ => ⟨a, b, c, d, e⟩) (fun ⟨a, b, c, d, e⟩ => ⟨a, b, c, d, e⟩)

def liveEndFrame : Codec F LiveEndFrame :=
  (Codec.object ((required "format" .string).both ((required "type" liveOfferKind).both
    ((required "sessionId" .string).both ((required "finalSeq" .decimal).both
      (required "terminal" wireTerminal))))) true).iso
    (fun ⟨a, b, c, d, e⟩ => ⟨a, b, c, d, e⟩) (fun ⟨a, b, c, d, e⟩ => ⟨a, b, c, d, e⟩)

def liveVersion : String := "trellis.live.v1"

def maxControlBodyBytes : Nat := 8192

/-- The end frame of a session. -/
def endFrame (sessionId : String) (finalSeq : U64) (terminal : WireTerminal) : LiveEndFrame :=
  ⟨liveVersion, .ending, sessionId, finalSeq, terminal⟩

def isBase64url (c : Char) : Bool :=
  c.isAlphanum || c = '-' || c = '_'

/-- The canonical text of 16 bytes: the last of its 22 digits has two bits. -/
def isNonce (text : String) : Bool :=
  text.length = 22 ∧ text.toList.all isBase64url ∧
    text.toList.getLast?.any fun c => c ∈ ['A', 'Q', 'g', 'w']

/-- Session and challenge IDs are nonces. -/
def parseNonce (field text : String) : Except FrameError Unit :=
  if isNonce text then .ok () else .error (.invalidNonce field)

/-- A member of an object that is a string. -/
def stringAt (key : String) : Json F → Option String
  | .object ms =>
    match lookups key ms with
    | [.string s] => some s
    | _ => none
  | _ => none

/-- `from_value`. -/
def fromValue {α : Type} (c : Codec F α) (d : Json F) : Except FrameError α :=
  match c.dec d with
  | some a => .ok a
  | none => .error .json

/-- Reads a frame of the kind that its discriminant names. -/
def readFrame (length maxDataBodyBytes : Nat) (value : Json F) : Except FrameError (LiveFrame F) :=
  match stringAt "type" value with
  | some "data" =>
    if length > maxDataBodyBytes then .error .bodyTooLarge
    else LiveFrame.data <$> fromValue liveDataFrame value
  | some "challenge" =>
    if length > maxControlBodyBytes then .error .bodyTooLarge
    else LiveFrame.challenge <$> fromValue liveChallengeFrame value
  | some "end" =>
    if length > maxControlBodyBytes then .error .bodyTooLarge
    else LiveFrame.ending <$> fromValue liveEndFrame value
  | _ => .error (.invalidFormat ["type"])

/-- The checks of a frame after it is read. -/
def checkFrame : LiveFrame F → Except FrameError Unit
  | .data frame => parseNonce "sessionId" frame.sessionId
  | .challenge frame => do
      parseNonce "sessionId" frame.sessionId
      parseNonce "challengeId" frame.challengeId
  | .ending frame => do
      parseNonce "sessionId" frame.sessionId
      frame.terminal.validate

/-- Length and format come first; then the discriminant tells how to read on. -/
def parseLiveFrame (text : JsonText F Text) (raw : Text) (maxDataBodyBytes : Nat) :
    Except FrameError (LiveFrame F) := do
  if text.length raw = 0 ∨ text.length raw > max maxDataBodyBytes maxControlBodyBytes then
    .error .bodyTooLarge
  else match text.fromSlice .value raw with
    | none => .error .json
    | some value =>
      if (stringAt "format" value.val).getD "" ≠ liveVersion then .error (.invalidFormat ["format"])
      else do
        let frame ← readFrame (text.length raw) maxDataBodyBytes value.val
        checkFrame frame
        .ok frame

/-! ## What the consumer reads -/

/-- A character has at most four bytes. -/
theorem utf8ByteSize_ofList_le (l : List Char) : (String.ofList l).utf8ByteSize ≤ 4 * l.length := by
  induction l with
  | nil => simp
  | cons c l ih =>
    rw [String.ofList_cons, String.utf8ByteSize_append, String.utf8ByteSize_singleton]
    have := c.utf8Size_le_four
    rw [length_cons]
    omega

/-- A cut message keeps both bounds. -/
theorem boundedMessage_bounds (message : String) :
    (boundedMessage message).length ≤ 512 ∧ (boundedMessage message).utf8ByteSize ≤ 2048 := by
  unfold boundedMessage
  split
  · assumption
  have htake : (message.toList.take 512).length ≤ 512 := by
    rw [length_take]
    omega
  have hbytes := utf8ByteSize_ofList_le (message.toList.take 512)
  rw [String.length_ofList]
  omega

/-- An escape has at most six bytes. -/
theorem escapeSize_le (c : Char) : Json.escapeSize c ≤ 6 := by
  have := c.utf8Size_le_four
  unfold Json.escapeSize
  split
  · omega
  · split <;> omega

/-- A text with its quotes. -/
theorem stringSize_le (s : String) : Json.stringSize s ≤ 2 + 6 * s.length := by
  have hsum : ∀ l : List Char, (l.map Json.escapeSize).sum ≤ 6 * l.length := by
    intro l
    induction l with
    | nil => simp
    | cons c l ih =>
      have := escapeSize_le c
      rw [map_cons, sum_cons, length_cons]
      omega
  rw [Json.stringSize, ← String.length_toList]
  have := hsum s.toList
  omega

/-- The document of an end frame. -/
def endDoc (sessionId : String) (finalSeq : U64) (terminal : WireTerminal) : Json F :=
  liveEndFrame.enc (endFrame sessionId finalSeq terminal)

/-- An end frame is shallow enough to be read. -/
theorem depth_endDoc : (@endDoc F sessionId finalSeq terminal).depth ≤ 127 := by
  obtain ⟨reason, error⟩ := terminal
  cases error with
  | none => exact (by decide : 2 ≤ 127)
  | some error =>
    obtain ⟨code, message, traceId⟩ := error
    cases traceId <;> exact (by decide : 3 ≤ 127)

/-- An end frame has no floats. -/
theorem mapFloat_endDoc :
    (endDoc sessionId finalSeq terminal).mapFloat ρ = endDoc sessionId finalSeq terminal := by
  obtain ⟨reason, error⟩ := terminal
  cases error with
  | none => rfl
  | some error =>
    obtain ⟨code, message, traceId⟩ := error
    cases traceId <;> rfl

/-- An end frame is read from its value. -/
theorem stable_liveEndFrame : (@liveEndFrame F).Stable := by
  have herror : (@wireTerminalError F).Stable :=
    Codec.stable_iso (Codec.stable_object (Fields.stable_both (Fields.stable_field
      Codec.stable_enum) (Fields.stable_both (Fields.stable_field Codec.stable_ofScalar)
        (Fields.stable_field (Codec.stable_option Codec.stable_ofScalar)))))
  have hterm : (@wireTerminal F).Stable :=
    Codec.stable_iso (Codec.stable_object (Fields.stable_both (Fields.stable_field
      Codec.stable_enum) (Fields.stable_field (Codec.stable_option herror))))
  exact Codec.stable_iso (Codec.stable_object (Fields.stable_both (Fields.stable_field
    Codec.stable_ofScalar) (Fields.stable_both (Fields.stable_field Codec.stable_enum)
      (Fields.stable_both (Fields.stable_field Codec.stable_ofScalar) (Fields.stable_both
        (Fields.stable_field Codec.stable_ofScalar) (Fields.stable_field hterm))))))

/-- Every end frame is read back. -/
theorem good_liveEndFrame (frame : LiveEndFrame) : (@liveEndFrame F).Good frame := by
  have herror : ∀ error : WireTerminalError,
      (@wireTerminalError F).Good error ∧ (@wireTerminalError F).enc error ≠ .null := fun _ => by
    simp [wireTerminalError, liveErrorCode]
  simp [liveEndFrame, wireTerminal, liveOfferKind, liveEndReason, herror]

/-- An end frame says what it is. -/
theorem stringAt_endDoc :
    stringAt "format" (@endDoc F sessionId finalSeq terminal).toValue = some liveVersion ∧
      stringAt "type" (@endDoc F sessionId finalSeq terminal).toValue = some "end" := by
  have hdoc : (@endDoc F sessionId finalSeq terminal).toValue = .object (Json.putAll
      [("format", .string liveVersion), ("type", .string "end"), ("sessionId", .string sessionId),
        ("finalSeq", .string (toString finalSeq.val)),
        ("terminal", (wireTerminal.enc terminal).toValue)]) := Json.toValue_object
  rw [hdoc, stringAt, stringAt, Codec.lookups_putAll (by simp), Codec.lookups_putAll (by simp)]
  exact ⟨rfl, rfl⟩

/-- The text of an end frame fits a control body. -/
theorem size_endDoc {floatSize : F → Nat} {theEnd : LiveEnd} (hnonce : sessionId.length = 22) :
    0 < (endDoc sessionId finalSeq (terminalFromEnd theEnd)).size floatSize ∧
      (endDoc sessionId finalSeq (terminalFromEnd theEnd)).size floatSize ≤
        maxControlBodyBytes := by
  obtain ⟨reason, error⟩ := theEnd
  have hobject : ∀ ms : List (String × Json F), Json.size floatSize (.object ms) = 2 +
      (ms.map fun m => Json.stringSize m.1 + 1 + Json.size floatSize m.2).sum +
        (ms.length - 1) := fun ms => by
    rw [Json.size, Json.fold_object, map_map, length_map]
    rfl
  have hstring : ∀ s : String, Json.size floatSize (.string s) = Json.stringSize s := fun _ => rfl
  have hkeys : Json.stringSize "format" = 8 ∧ Json.stringSize "type" = 6 ∧
      Json.stringSize "sessionId" = 11 ∧ Json.stringSize "finalSeq" = 10 ∧
      Json.stringSize "terminal" = 10 ∧ Json.stringSize "reason" = 8 ∧
      Json.stringSize "error" = 7 ∧ Json.stringSize "code" = 6 ∧
      Json.stringSize "message" = 9 ∧ Json.stringSize liveVersion = 17 ∧
      Json.stringSize "end" = 5 := by decide
  have hframe : (endDoc sessionId finalSeq (terminalFromEnd ⟨reason, error⟩)).size floatSize =
      _ := hobject [("format", .string liveVersion), ("type", .string "end"),
        ("sessionId", .string sessionId), ("finalSeq", .string (toString finalSeq.val)),
        ("terminal", wireTerminal.enc (terminalFromEnd ⟨reason, error⟩))]
  simp only [map_cons, map_nil, sum_cons, sum_nil, length_cons, length_nil, hstring] at hframe
  have hid := stringSize_le sessionId
  have hseq := stringSize_le (toString finalSeq.val)
  have hdigits : (toString finalSeq.val).length ≤ 20 :=
    Nat.repr_length _ 20 (by decide) (finalSeq.property.trans (by decide))
  have hreason : Json.stringSize reason.asStr ≤ 100 := by cases reason <;> decide
  rw [maxControlBodyBytes]
  cases error with
  | none =>
    have hterm : Json.size floatSize (wireTerminal.enc (terminalFromEnd ⟨reason, none⟩)) =
      _ := hobject [("reason", .string reason.asStr), ("error", .null)]
    have hnull : Json.size floatSize .null = 4 := rfl
    simp only [map_cons, map_nil, sum_cons, sum_nil, length_cons, length_nil, hstring] at hterm
    omega
  | some error =>
    have hterm : Json.size floatSize (wireTerminal.enc (terminalFromEnd ⟨reason, some error⟩))
      = _ := hobject [("reason", .string reason.asStr), ("error", .object
        [("code", .string error.code.asStr), ("message", .string (boundedMessage error.message))])]
    simp only [map_cons, map_nil, sum_cons, sum_nil, length_cons,
      length_nil, hstring, hobject] at hterm
    have hcode : Json.stringSize error.code.asStr ≤ 100 := by cases error.code <;> decide
    have hmsg := stringSize_le (boundedMessage error.message)
    have hbound := (boundedMessage_bounds error.message).1
    omega

/-- What the consumer accepts of a terminal. -/
theorem validate_eq_ok_iff : (terminalFromEnd theEnd).validate = .ok () ↔
    (theEnd.reason.normal = true ↔ theEnd.error = none) ∧
      ∀ error ∈ theEnd.error, '\x00' ∉ (boundedMessage error.message).toList := by
  obtain ⟨reason, error⟩ := theEnd
  cases error with
  | none => cases hnormal : reason.normal <;> simp [WireTerminal.validate, terminalFromEnd, hnormal]
  | some error =>
    obtain ⟨hlen, hbytes⟩ := boundedMessage_bounds error.message
    cases hnormal : reason.normal <;>
      simp [WireTerminal.validate, terminalFromEnd, hnormal, WireTerminalError.bounded, hlen,
        hbytes]

/-- What the consumer makes of an end frame is what the check makes of its terminal. -/
theorem parse_endDoc (text : JsonText F Text) (hnonce : isNonce sessionId = true)
    {theEnd : LiveEnd} :
    parseLiveFrame text (text.write (endDoc sessionId finalSeq (terminalFromEnd theEnd)))
        maxDataBodyBytes = (terminalFromEnd theEnd).validate.map
        fun _ => .ending (endFrame sessionId finalSeq (terminalFromEnd theEnd)) := by
  have hlen : sessionId.length = 22 := (of_decide_eq_true hnonce).1
  obtain ⟨hpos, hsize⟩ := @size_endDoc F sessionId finalSeq text.floatSize theEnd hlen
  have hread : liveEndFrame.dec (@endDoc F sessionId finalSeq (terminalFromEnd theEnd)).toValue =
      some (endFrame sessionId finalSeq (terminalFromEnd theEnd)) :=
    stable_liveEndFrame _ (good_liveEndFrame _)
  obtain ⟨hformat, htype⟩ := @stringAt_endDoc F sessionId finalSeq (terminalFromEnd theEnd)
  have hframe : @readFrame F ((endDoc sessionId finalSeq (terminalFromEnd theEnd)).size
      text.floatSize) maxDataBodyBytes
        (endDoc sessionId finalSeq (terminalFromEnd theEnd)).toValue =
      .ok (.ending (endFrame sessionId finalSeq (terminalFromEnd theEnd))) := by
    simp only [readFrame, htype, not_lt.mpr hsize, fromValue, hread]
    rfl
  rw [parseLiveFrame, text.length_write, if_neg (by omega), text.fromSlice_value_write,
    if_pos depth_endDoc, mapFloat_endDoc]
  change (if (stringAt "format" (endDoc sessionId finalSeq
    (terminalFromEnd theEnd)).toValue).getD "" ≠ liveVersion then _ else do
      let frame ← readFrame _ _ (endDoc sessionId finalSeq (terminalFromEnd theEnd)).toValue
      checkFrame frame
      .ok frame) = _
  rw [hformat, hframe]
  change ((do parseNonce "sessionId" sessionId; (terminalFromEnd theEnd).validate) >>= _) = _
  rw [parseNonce, if_pos hnonce]
  cases (terminalFromEnd theEnd).validate <;> rfl

/-- **The frame that ends a session is read as its end** exactly when a normal reason comes without
an error, another with one, and the error's bounded message has no NUL. -/
theorem end_frame_read_iff (text : JsonText F Text) (sessionId : String)
    (hnonce : isNonce sessionId = true) (finalSeq : U64) (theEnd : LiveEnd)
    (maxDataBodyBytes : Nat) : (∃ frame, parseLiveFrame text
        (text.write (liveEndFrame.enc (endFrame sessionId finalSeq (terminalFromEnd theEnd))))
        maxDataBodyBytes = .ok (.ending frame) ∧
      frame.terminal.reason = theEnd.reason ∧ frame.terminal.error.map WireTerminalError.code =
          theEnd.error.map LiveStreamError.code) ↔
    (theEnd.reason.normal = true ↔ theEnd.error = none) ∧
      ∀ error ∈ theEnd.error, '\x00' ∉ (boundedMessage error.message).toList := by
  rw [← validate_eq_ok_iff, ← endDoc, parse_endDoc text hnonce]
  constructor
  · rintro ⟨frame, hframe, -⟩
    cases hvalid : (terminalFromEnd theEnd).validate with
    | ok _ => rfl
    | error e =>
      rw [hvalid] at hframe
      cases hframe
  · intro hvalid
    refine ⟨_, congrArg (Except.map _) hvalid, rfl, ?_⟩
    change Option.map _ (Option.map _ _) = _
    rw [Option.map_map]
    rfl

/-- A source fails with a message that can be sent. -/
theorem end_frame_read_failed :
    ∃ frame, parseLiveFrame (@JsonText.documents Empty) (liveEndFrame.enc (endFrame
        "AAAAAAAAAAAAAAAAAAAAAA" ⟨3, by decide⟩ (terminalFromEnd (sourceFailureEnd "disk full"))))
        1024 = .ok (.ending frame) ∧ frame.terminal.reason = .sourceError ∧
      frame.terminal.error.map WireTerminalError.code = some .sourceFailed :=
  (end_frame_read_iff .documents "AAAAAAAAAAAAAAAAAAAAAA" (by decide) _
    (sourceFailureEnd "disk full") _).mpr ⟨by decide, by rintro _ ⟨⟩; decide⟩

/-- Refused: a source failure whose message has a NUL, and a setup timeout without an error. -/
theorem end_frame_refused : parseLiveFrame (@JsonText.documents Empty) (liveEndFrame.enc (endFrame
        "AAAAAAAAAAAAAAAAAAAAAA" ⟨3, by decide⟩ (terminalFromEnd (sourceFailureEnd "a\x00b"))))
        1024 = .error (.invalidFormat ["terminal", "error", "message"]) ∧
      parseLiveFrame (@JsonText.documents Empty) (liveEndFrame.enc (endFrame
        "AAAAAAAAAAAAAAAAAAAAAA" ⟨3, by decide⟩ (terminalFromEnd ⟨.setupTimeout, none⟩)))
        1024 = .error (.invalidFormat ["terminal"]) :=
  ⟨(parse_endDoc .documents (by decide)).trans (congrArg (Except.map _)
      (by decide : (terminalFromEnd (sourceFailureEnd "a\x00b")).validate = .error _)),
    (parse_endDoc .documents (by decide)).trans rfl⟩

end Live.Frames
