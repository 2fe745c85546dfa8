/-
# Subject coverage of the transport policy

The subject part of `transport_authorization.rs`: the restricted NATS pattern
grammar, and `subject_union_covered_by`, which decides whether the union of one
list of subject patterns lies in the union of another.  It tests, for each
source pattern, one subject per length, made of the pattern's literals and a
token no pattern mentions.
-/
import Mathlib.Data.List.MinMax
import Trellis.Lib.Glob
import Trellis.Lib.Text

namespace TransportAuthorization

open List

/-! ## Errors -/

/-- The codes that transport policies and session events are refused with. -/
inductive AuthorizationErrorCode where
  | invalidFormat | nonCanonicalSet | unsafeJsonInteger | invalidEncoding | invalidIdentifier
  | invalidEventProof | historicalContext | sessionRevoked | contextNotYetValid | contextExpired
  deriving DecidableEq, Repr

/-- `ProtocolError::Authorization`, its path as the list of pointer tokens. -/
structure ProtocolError where
  code : AuthorizationErrorCode
  path : List String
  message : String
  deriving DecidableEq, Repr

def patternError (reason : String) : ProtocolError where
  code := .invalidFormat
  path := ["subjectPattern"]
  message := reason

/-! ## The pattern grammar -/

/-- A parsed subject token: `Literal`, `Star` or `Greater`. -/
abbrev Token := Glob.Token String

/-- A character no literal token may contain. -/
def isUnsafe (c : Char) : Bool :=
  c == '*' || c == '>' || Text.isWhitespace c || Text.isAsciiControl c

/-- One round of `parse_pattern`; `last` tells whether the token ends the pattern. -/
def parseToken (last : Bool) (token : String) : Except String Token :=
  if token = "" then .error "subject pattern contains an empty token"
  else if token = ">" then
    if last then .ok .greater
    else .error "terminal wildcard must be the last subject token"
  else if token = "*" then .ok .star
  else if token.toList.any isUnsafe then
    .error "subject token contains a wildcard or unsafe character"
  else .ok (.literal token)

def parseTokens : List String → Except String (List Token)
  | [] => .ok []
  | token :: raw => do
      let parsed ← parseToken raw.isEmpty token
      let tokens ← parseTokens raw
      return parsed :: tokens

def parsePattern (pattern : String) : Except String (List Token) :=
  if pattern = "" then .error "subject pattern must be nonempty"
  else parseTokens (Text.split '.' pattern)

/-! ## The coverage test -/

def witnessTokenBase : String := "trellis-other-witness"

/-- The loop of `unique_witness_token`.  Each round has met one more literal, so that as many rounds
as literals are enough. -/
def uniqueWitnessTokenLoop (literals : List String) : Nat → String → String
  | 0, witness => witness
  | rounds + 1, witness =>
    if witness ∈ literals then uniqueWitnessTokenLoop literals rounds (witness.push '_')
    else witness

def uniqueWitnessToken (literals : List String) : String :=
  uniqueWitnessTokenLoop literals literals.length witnessTokenBase

/-- The loop of `pattern_matches` from a position of the subject on. -/
def patternMatchesFrom : List Token → List String → Nat → Bool
  | [], witness, position => position == witness.length
  | .literal literal :: pattern, witness, position =>
    if witness[position]? = some literal then patternMatchesFrom pattern witness (position + 1)
    else false
  | .star :: pattern, witness, position =>
    if witness.length ≤ position then false
    else patternMatchesFrom pattern witness (position + 1)
  | .greater :: _, witness, position => position < witness.length

def patternMatches (pattern : List Token) (witness : List String) : Bool :=
  patternMatchesFrom pattern witness 0

def patternCoveredByUnion (source : List Token) (destination : List (List Token))
    (witness : String) (maximumLength : Nat) : Bool :=
  let covered := fun length =>
    destination.any fun pattern => patternMatches pattern (Glob.witnessFor source witness length)
  match source.getLast? with
  | some .greater =>
    let prefixLength := source.length - 1
    (List.range' (prefixLength + 1) (maximumLength + 1 - prefixLength)).all covered
  | _ => covered source.length

/-- The loop of `subject_union_covered_by` over the source patterns. -/
def sourcesCovered (destination : List (List Token)) (witness : String) (maximumLength : Nat) :
    List String → Except ProtocolError Bool
  | [] => .ok true
  | pattern :: source => do
      let tokens ← (parsePattern pattern).mapError patternError
      if patternCoveredByUnion tokens destination witness maximumLength then
        sourcesCovered destination witness maximumLength source
      else return false

/-- The literal tokens named by any of the patterns. -/
def literalsOf (patterns : List String) : List String :=
  (patterns.flatMap (Text.split '.')).filter fun token => token ≠ "*" ∧ token ≠ ">"

def maximumLengthOf (patterns : List String) : Nat :=
  (patterns.map fun pattern => (Text.split '.' pattern).length).foldr max 0

/-- Whether `destination` covers every subject that `source` permits. -/
def subjectUnionCoveredBy (source destination : List String) : Except ProtocolError Bool := do
  let destinationPatterns ← (destination.mapM parsePattern).mapError patternError
  let witness := uniqueWitnessToken (literalsOf (source ++ destination))
  sourcesCovered destinationPatterns witness (maximumLengthOf (source ++ destination)) source

/-! ## Well-formed patterns and concrete subjects -/

/-- What a raw token of a pattern stands for. -/
def tokenOf (raw : String) : Token :=
  if raw = ">" then .greater else if raw = "*" then .star else .literal raw

/-- Nonempty tokens between dots, each a wildcard or a plain literal, with `>` at the end only. -/
structure SubjectPattern where
  text : String
  token_ok : ∀ raw ∈ Text.split '.' text,
    raw ≠ "" ∧ (raw = "*" ∨ raw = ">" ∨ raw.toList.any isUnsafe = false)
  greater_last : ∀ raw ∈ (Text.split '.' text).dropLast, raw ≠ ">"

/-- A nonempty token without a dot or a wildcard character. -/
def ConcreteToken (token : String) : Prop :=
  token ≠ "" ∧ '.' ∉ token.toList ∧ '*' ∉ token.toList ∧ '>' ∉ token.toList

/-- A subject a message can be published on. -/
structure ConcreteSubject where
  tokens : List String
  nonempty : tokens ≠ []
  token_ok : ∀ token ∈ tokens, ConcreteToken token

namespace SubjectPattern

variable (pattern : SubjectPattern)

/-- The tokens the pattern stands for. -/
def tokens : List Token :=
  (Text.split '.' pattern.text).map tokenOf

/-- `*` takes exactly one token, a final `>` takes one or more. -/
def Permits (subject : ConcreteSubject) : Prop :=
  Glob.Matches pattern.tokens subject.tokens

theorem tokens_ne_nil : pattern.tokens ≠ [] := by
  simp [tokens, Text.split_ne_nil]

theorem length_tokens : pattern.tokens.length = (Text.split '.' pattern.text).length := by
  simp [tokens]

end SubjectPattern

theorem tokenOf_eq_greater : tokenOf raw = .greater ↔ raw = ">" := by
  unfold tokenOf
  split
  · simp [*]
  · split <;> simp [*]

theorem tokenOf_eq_literal :
    tokenOf raw = .literal value ↔ raw = value ∧ raw ≠ ">" ∧ raw ≠ "*" := by
  unfold tokenOf
  split
  · simp [*]
  · split <;> simp [*]

theorem tailLast_map_tokenOf {raw : List String} (h : ∀ token ∈ raw.dropLast, token ≠ ">") :
    Glob.TailLast (raw.map tokenOf) := by
  induction raw with
  | nil => trivial
  | cons token raw ih =>
    cases raw with
    | nil => cases htoken : tokenOf token <;> simp [htoken, Glob.TailLast]
    | cons next raw =>
      have hrest := ih (fun t ht => h t (by simp [ht]))
      have htoken : tokenOf token ≠ .greater := by
        rw [ne_eq, tokenOf_eq_greater]
        exact h token (by simp)
      rw [map_cons]
      cases ht : tokenOf token with
      | greater => exact absurd ht htoken
      | star | literal value => exact hrest

theorem SubjectPattern.tailLast (pattern : SubjectPattern) : Glob.TailLast pattern.tokens :=
  tailLast_map_tokenOf pattern.greater_last

/-! ## The parser accepts exactly the well-formed patterns -/

theorem parseToken_eq_ok (hne : raw ≠ "")
    (hraw : raw = "*" ∨ raw = ">" ∨ raw.toList.any isUnsafe = false)
    (hlast : raw = ">" → last = true) : parseToken last raw = .ok (tokenOf raw) := by
  unfold parseToken tokenOf
  rw [if_neg hne]
  by_cases hgt : raw = ">"
  · rw [if_pos hgt, if_pos hgt, if_pos (hlast hgt)]
  rw [if_neg hgt, if_neg hgt]
  by_cases hstar : raw = "*"
  · rw [if_pos hstar, if_pos hstar]
  · have hsafe := (hraw.resolve_left hstar).resolve_left hgt
    rw [if_neg hstar, if_neg hstar, if_neg (by simp [hsafe])]

theorem parseTokens_eq_ok {raw : List String} (hraw : ∀ token ∈ raw, token ≠ "" ∧
      (token = "*" ∨ token = ">" ∨ token.toList.any isUnsafe = false))
    (hlast : ∀ token ∈ raw.dropLast, token ≠ ">") : parseTokens raw = .ok (raw.map tokenOf) := by
  induction raw with
  | nil => rfl
  | cons token raw ih =>
    have hrest : parseTokens raw = .ok (raw.map tokenOf) := by
      apply ih (fun t ht => hraw t (mem_cons_of_mem token ht))
      intro t ht
      cases raw with
      | nil => simp at ht
      | cons next raw => exact hlast t (by simp [ht])
    have htoken : parseToken raw.isEmpty token = .ok (tokenOf token) := by
      obtain ⟨hne, hok⟩ := hraw token mem_cons_self
      apply parseToken_eq_ok hne hok
      intro hgt
      cases raw with
      | nil => rfl
      | cons next raw => exact absurd hgt (hlast token (by simp))
    rw [parseTokens, htoken, hrest]
    rfl

/-- Parsing a well-formed pattern gives the tokens it stands for. -/
theorem parsePattern_text (pattern : SubjectPattern) :
    parsePattern pattern.text = .ok pattern.tokens := by
  have hne : pattern.text ≠ "" := by
    intro hempty
    have hmem : "" ∈ Text.split '.' pattern.text := by
      rw [hempty]
      decide
    exact (pattern.token_ok "" hmem).1 rfl
  rw [parsePattern, if_neg hne]
  exact parseTokens_eq_ok pattern.token_ok pattern.greater_last

theorem parseToken_ok (h : parseToken last raw = .ok token) :
    raw ≠ "" ∧ (raw = "*" ∨ raw = ">" ∨ raw.toList.any isUnsafe = false) ∧
      (raw = ">" → last = true) := by
  unfold parseToken at h
  by_cases hempty : raw = ""
  · simp [hempty] at h
  rw [if_neg hempty] at h
  refine ⟨hempty, ?_⟩
  by_cases hgt : raw = ">"
  · rw [if_pos hgt] at h
    cases last with
    | true => exact ⟨.inr (.inl hgt), fun _ => rfl⟩
    | false => simp at h
  · refine ⟨?_, fun hraw => absurd hraw hgt⟩
    by_cases hstar : raw = "*"
    · exact .inl hstar
    rw [if_neg hgt, if_neg hstar] at h
    refine .inr (.inr ?_)
    by_contra hunsafe
    rw [if_pos (by simpa using hunsafe)] at h
    cases h

theorem parseTokens_ok {raw : List String} (h : parseTokens raw = .ok tokens) :
    (∀ token ∈ raw, token ≠ "" ∧ (token = "*" ∨ token = ">" ∨ token.toList.any isUnsafe = false)) ∧
      ∀ token ∈ raw.dropLast, token ≠ ">" := by
  induction raw generalizing tokens with
  | nil => simp
  | cons token raw ih =>
    rw [parseTokens] at h
    cases htoken : parseToken raw.isEmpty token with
    | error reason => simp [htoken, bind, Except.bind] at h
    | ok parsed =>
      cases hrest : parseTokens raw with
      | error reason => simp [htoken, hrest, bind, Except.bind] at h
      | ok rest =>
        obtain ⟨hne, hok, hlast⟩ := parseToken_ok htoken
        obtain ⟨hall, hdrop⟩ := ih hrest
        refine ⟨?_, ?_⟩
        · intro t ht
          rcases mem_cons.mp ht with rfl | ht
          · exact ⟨hne, hok⟩
          · exact hall t ht
        · intro t ht
          cases raw with
          | nil => simp at ht
          | cons next raw =>
            rcases mem_cons.mp ht with rfl | ht
            · exact fun hgt => by simpa using hlast hgt
            · exact hdrop t ht

/-- **The parser accepts exactly the well-formed patterns**, as the tokens they stand for. -/
theorem parsePattern_eq_ok_iff (text : String) (tokens : List Token) :
    parsePattern text = .ok tokens ↔
      ∃ pattern : SubjectPattern, pattern.text = text ∧ pattern.tokens = tokens := by
  constructor
  · intro h
    have hparse := h
    rw [parsePattern] at h
    split at h
    · simp at h
    obtain ⟨hall, hdrop⟩ := parseTokens_ok h
    refine ⟨⟨text, hall, hdrop⟩, rfl, ?_⟩
    have := parsePattern_text ⟨text, hall, hdrop⟩
    rw [hparse] at this
    cases this
    rfl
  · rintro ⟨pattern, rfl, rfl⟩
    exact parsePattern_text pattern

/-! ## The fresh token -/

variable (literals : List String)

/-- With a round for every literal at least as long, the loop ends on a token that is none. -/
theorem uniqueWitnessTokenLoop_notMem (rounds : Nat) : ∀ witness : String,
      (literals.filter fun literal => witness.length ≤ literal.length).length ≤ rounds →
      uniqueWitnessTokenLoop literals rounds witness ∉ literals := by
  induction rounds with
  | zero =>
    intro witness hcount hmem
    have hin : witness ∈ literals.filter fun literal => witness.length ≤ literal.length :=
      mem_filter.mpr ⟨hmem, by simp⟩
    have hpos := length_pos_of_mem hin
    omega
  | succ rounds ih =>
    intro witness hcount
    rw [uniqueWitnessTokenLoop]
    split
    next hmem =>
      apply ih _
      -- the literal just met is too short to count for the longer token
      have hlt : (literals.filter fun literal => (witness.push '_').length ≤ literal.length).length
          < (literals.filter fun literal => witness.length ≤ literal.length).length := by
        have hsub : (literals.filter fun literal => (witness.push '_').length ≤ literal.length)
            = (literals.filter fun literal => witness.length ≤ literal.length).filter
                fun literal => (witness.push '_').length ≤ literal.length := by
          rw [filter_filter]
          apply filter_congr
          intro literal _
          rw [String.length_push, Bool.eq_iff_iff]
          simp only [Bool.and_eq_true, decide_eq_true_eq]
          omega
        rw [hsub]
        refine length_filter_lt_length_iff_exists.mpr ⟨witness, ?_, by simp⟩
        exact mem_filter.mpr ⟨hmem, by simp⟩
      omega
    · assumption

theorem uniqueWitnessToken_notMem : uniqueWitnessToken literals ∉ literals :=
  uniqueWitnessTokenLoop_notMem literals literals.length witnessTokenBase (length_filter_le _ _)

/-- What one round keeps, the whole loop keeps. -/
theorem uniqueWitnessTokenLoop_induct {P : String → Prop} (hpush : ∀ s, P s → P (s.push '_'))
    (literals : List String) (rounds : Nat) :
    ∀ witness, P witness → P (uniqueWitnessTokenLoop literals rounds witness) := by
  induction rounds with
  | zero => exact fun _ h => h
  | succ rounds ih =>
    intro witness h
    rw [uniqueWitnessTokenLoop]
    split
    · exact ih _ (hpush witness h)
    · exact h

theorem concreteToken_uniqueWitnessToken : ConcreteToken (uniqueWitnessToken literals) := by
  refine uniqueWitnessTokenLoop_induct ?_ literals _ _ (by unfold ConcreteToken; decide)
  rintro s ⟨-, hdot, hstar, hgt⟩
  refine ⟨?_, ?_⟩
  · intro hempty
    have := congrArg String.length hempty
    simp at this
  · simp [hdot, hstar, hgt]

variable {pattern : SubjectPattern} {patterns : List SubjectPattern}

/-- The literals of a well-formed pattern are tokens of concrete subjects. -/
theorem SubjectPattern.concreteToken_of_literal
    (h : .literal value ∈ pattern.tokens) : ConcreteToken value := by
  obtain ⟨raw, hraw, htoken⟩ := mem_map.mp h
  obtain ⟨rfl, hgt, hstar⟩ := tokenOf_eq_literal.mp htoken
  obtain ⟨hne, hok⟩ := pattern.token_ok raw hraw
  have hsafe := (hok.resolve_left hstar).resolve_left hgt
  rw [any_eq_false] at hsafe
  refine ⟨hne, Text.sep_notMem_of_mem_split hraw, ?_, ?_⟩
  · intro hmem
    exact hsafe '*' hmem (by decide)
  · intro hmem
    exact hsafe '>' hmem (by decide)

theorem length_le_maximumLengthOf (hmem : pattern ∈ patterns) :
    pattern.tokens.length ≤ maximumLengthOf (patterns.map SubjectPattern.text) := by
  rw [pattern.length_tokens]
  exact le_max_of_le' 0 (mem_map.mpr ⟨pattern.text, mem_map_of_mem hmem, rfl⟩) (Nat.le_refl _)

/-! ## The coverage test decides inclusion -/

/-- The position loop matches the rest of the subject. -/
theorem patternMatchesFrom_iff (pattern : List Token) :
    ∀ (witness : List String) (position : Nat), position ≤ witness.length →
      (patternMatchesFrom pattern witness position = true ↔
        Glob.Matches pattern (witness.drop position)) := by
  induction pattern with
  | nil =>
    intro witness position hle
    rw [patternMatchesFrom, Glob.matches_nil, drop_eq_nil_iff, beq_iff_eq]
    omega
  | cons token pattern ih =>
    intro witness position hle
    rcases Nat.lt_or_ge position witness.length with hlt | hge
    · rw [drop_eq_getElem_cons hlt]
      cases token with
      | greater => simp [patternMatchesFrom, hlt]
      | star => rw [patternMatchesFrom, if_neg (by omega), ih _ _ hlt, Glob.matches_star_cons]
      | literal value =>
        rw [patternMatchesFrom, Glob.matches_literal_cons, getElem?_eq_getElem hlt]
        by_cases hvalue : witness[position] = value
        · rw [if_pos (by rw [hvalue]), ih _ _ hlt]
          simp [hvalue]
        · simp [hvalue]
    · rw [drop_of_length_le hge]
      cases token with
      | greater => simp [patternMatchesFrom]; omega
      | star => simp [patternMatchesFrom, hge]
      | literal value => simp [patternMatchesFrom, getElem?_eq_none hge]

/-- The loop tests every length of a word of the pattern up to one past the longest. -/
theorem patternCoveredByUnion_iff (hpos : source ≠ []) (hle : source.length ≤ maximumLength) :
    patternCoveredByUnion source destination witness maximumLength = true ↔
      ∀ n ≤ maximumLength + 1, Glob.HasLength source n →
        ∃ pattern ∈ destination, Glob.Matches pattern (Glob.witnessFor source witness n) := by
  have hcov : ∀ n, (destination.any fun pattern =>
      patternMatches pattern (Glob.witnessFor source witness n)) = true ↔
        ∃ pattern ∈ destination, Glob.Matches pattern (Glob.witnessFor source witness n) := by
    intro n
    simp only [any_eq_true, patternMatches, patternMatchesFrom_iff _ _ 0 (Nat.zero_le _), drop_zero]
  have hlen : 0 < source.length := length_pos_iff.mpr hpos
  unfold patternCoveredByUnion
  by_cases hlast : source.getLast? = some .greater
  · simp only [hlast, all_eq_true, mem_range'_1, hcov]
    constructor
    · intro h n hn hn'
      apply h n
      rcases hn' with h' | ⟨-, h'⟩ <;> omega
    · intro h n hn
      exact h n (by omega) (.inr ⟨hlast, by omega⟩)
  · have hmatch : ∀ (a b : Bool), (match source.getLast? with
        | some .greater => a
        | _ => b) = b := by
      intro a b
      split
      · contradiction
      · rfl
    rw [hmatch, hcov]
    constructor
    · intro h n _ hn
      obtain rfl : n = source.length := hn.resolve_right (fun h' => hlast h'.1)
      exact h
    · intro h
      exact h _ (by omega) (.inl rfl)

theorem mapM_parsePattern : (patterns.map SubjectPattern.text).mapM parsePattern
      = .ok (patterns.map SubjectPattern.tokens) := by
  induction patterns with
  | nil => rfl
  | cons pattern patterns ih =>
    rw [map_cons, mapM_cons, parsePattern_text, ih]
    rfl

/-- The loop succeeds, and answers `true` exactly when each source pattern is covered. -/
theorem sourcesCovered_eq (destination : List (List Token)) (witness : String)
    (maximumLength : Nat) (source : List SubjectPattern) :
    sourcesCovered destination witness maximumLength (source.map SubjectPattern.text)
      = .ok (source.all fun pattern =>
          patternCoveredByUnion pattern.tokens destination witness maximumLength) := by
  induction source with
  | nil => rfl
  | cons pattern source ih =>
    rw [map_cons, sourcesCovered, parsePattern_text, all_cons]
    show (if _ then _ else _) = _
    by_cases hcov : patternCoveredByUnion pattern.tokens destination witness maximumLength = true
    · rw [if_pos hcov, ih, hcov, Bool.true_and]
    · rw [Bool.not_eq_true _ |>.mp hcov]
      rfl

/-- The answer of the coverage test on well-formed patterns. -/
def unionCovered (source destination : List SubjectPattern) : Bool :=
  let all := (source ++ destination).map SubjectPattern.text
  source.all fun pattern => patternCoveredByUnion pattern.tokens
    (destination.map SubjectPattern.tokens) (uniqueWitnessToken (literalsOf all))
    (maximumLengthOf all)

theorem subjectUnionCoveredBy_text (source destination : List SubjectPattern) :
    subjectUnionCoveredBy (source.map SubjectPattern.text) (destination.map SubjectPattern.text)
      = .ok (unionCovered source destination) := by
  rw [subjectUnionCoveredBy, mapM_parsePattern, ← map_append]
  exact sourcesCovered_eq _ _ _ source

/-- One source pattern: the witness words decide its inclusion. -/
theorem patternCoveredByUnion_iff_permits {source destination all : List SubjectPattern}
    (hall : source ++ destination = all) (hpat : pattern ∈ source) :
    patternCoveredByUnion pattern.tokens (destination.map SubjectPattern.tokens)
        (uniqueWitnessToken (literalsOf (all.map SubjectPattern.text)))
        (maximumLengthOf (all.map SubjectPattern.text)) = true ↔
      ∀ subject : ConcreteSubject, pattern.Permits subject →
        ∃ q ∈ destination, q.Permits subject := by
  subst hall
  have hfresh : ∀ q ∈ destination.map SubjectPattern.tokens,
      .literal (uniqueWitnessToken (literalsOf ((source ++ destination).map SubjectPattern.text)))
        ∉ q := by
    intro q hq hmem
    obtain ⟨other, hother, rfl⟩ := mem_map.mp hq
    -- the literals the coverage test collects are those of the parsed patterns
    obtain ⟨raw, hraw, htoken⟩ := mem_map.mp hmem
    obtain ⟨rfl, hgt, hstar⟩ := tokenOf_eq_literal.mp htoken
    apply uniqueWitnessToken_notMem (literalsOf ((source ++ destination).map SubjectPattern.text))
    refine mem_filter.mpr ⟨?_, ?_⟩
    · exact mem_flatMap.mpr ⟨other.text, mem_map_of_mem (mem_append_right source hother), hraw⟩
    · exact decide_eq_true ⟨hstar, hgt⟩
  have hlengths : ∀ q ∈ destination.map SubjectPattern.tokens,
      q.length ≤ maximumLengthOf ((source ++ destination).map SubjectPattern.text) := by
    intro q hq
    obtain ⟨other, hother, rfl⟩ := mem_map.mp hq
    exact length_le_maximumLengthOf (mem_append_right source hother)
  have hle := length_le_maximumLengthOf (mem_append_left destination hpat)
  rw [patternCoveredByUnion_iff pattern.tokens_ne_nil hle, ← Glob.included_iff_witnesses
      (P := fun w => w ≠ [] ∧ ∀ token ∈ w, ConcreteToken token)
      pattern.tailLast pattern.tokens_ne_nil hle hfresh hlengths ?_]
  · constructor
    · intro h subject hsubj
      obtain ⟨q, hq, hm⟩ := h subject.tokens ⟨subject.nonempty, subject.token_ok⟩ hsubj
      obtain ⟨p, hp, rfl⟩ := mem_map.mp hq
      exact ⟨p, hp, hm⟩
    · rintro h w ⟨hne, hok⟩ hw
      obtain ⟨p, hp, hm⟩ := h ⟨w, hne, hok⟩ hw
      exact ⟨p.tokens, mem_map_of_mem hp, hm⟩
  · intro n hn
    refine ⟨?_, ?_⟩
    · intro hnil
      have := congrArg List.length hnil
      rw [Glob.length_witnessFor] at this
      exact hn this
    · intro token htoken
      rcases Glob.mem_witnessFor htoken with hliteral | rfl
      · exact SubjectPattern.concreteToken_of_literal hliteral
      · exact concreteToken_uniqueWitnessToken _

theorem unionCovered_iff (source destination : List SubjectPattern) :
    unionCovered source destination = true ↔ ∀ subject : ConcreteSubject,
      (∃ pattern ∈ source, pattern.Permits subject) →
        ∃ pattern ∈ destination, pattern.Permits subject := by
  rw [unionCovered, all_eq_true]
  constructor
  · rintro h subject ⟨pattern, hpat, hperm⟩
    exact (patternCoveredByUnion_iff_permits rfl hpat).mp (h pattern hpat) subject hperm
  · intro h pattern hpat
    exact (patternCoveredByUnion_iff_permits rfl hpat).mpr
      fun subject hperm => h subject ⟨pattern, hpat, hperm⟩

/-- **The coverage test is exact.**  On well-formed patterns it succeeds, and answers `true` exactly
when every subject some source pattern permits is permitted by some destination pattern. -/
theorem subjectUnionCoveredBy_iff_permits (source destination : List SubjectPattern) :
    ∃ covered : Bool, subjectUnionCoveredBy (source.map SubjectPattern.text)
        (destination.map SubjectPattern.text) = .ok covered ∧
      (covered = true ↔ ∀ subject : ConcreteSubject, (∃ pattern ∈ source, pattern.Permits subject) →
          ∃ pattern ∈ destination, pattern.Permits subject) :=
  ⟨unionCovered source destination, subjectUnionCoveredBy_text source destination,
    unionCovered_iff source destination⟩

end TransportAuthorization
