/-
# Content digests

The digest text of a transferred object, `SHA-256=` and the unpadded URL-safe base64 of the
hash, and the comparison both peers make (`transfer_digests_match`), which forgives padding.
Between digests as the protocol accepts them it forgives nothing.  Digests close a transfer
together with its size and the number of its last frame.
-/
import Mathlib.Data.List.Induction

namespace Transfer

abbrev Bytes := List UInt8

def maxTransferFrameBytes : Nat := 1048576

/-- SHA-256 with its text: 43 characters of URL-safe base64. -/
structure Sha256 where
  text : Bytes → String
  text_length : ∀ bytes, (text bytes).toList.length = 43
  text_plain : ∀ bytes, '=' ∉ (text bytes).toList

def digestText (sha : Sha256) (bytes : Bytes) : String :=
  "SHA-256=" ++ sha.text bytes

/-- `trim_end_matches('=')`. -/
def trimPadding (text : String) : String :=
  String.ofList (text.toList.reverse.dropWhile fun c => c = '=').reverse

def transferDigestsMatch (left right : String) : Bool :=
  trimPadding left = trimPadding right

/-- `validate_transfer_digest`: the text of a hash follows the algorithm's name. -/
def ValidDigest (digest : String) : Prop :=
  ∃ text : String, digest = "SHA-256=" ++ text ∧ text.toList.length = 43 ∧ '=' ∉ text.toList

theorem validDigest_digestText (sha : Sha256) (bytes : Bytes) :
    ValidDigest (digestText sha bytes) :=
  ⟨sha.text bytes, rfl, sha.text_length bytes, sha.text_plain bytes⟩

/-- A text that does not end in padding is left as it is. -/
theorem trimPadding_of_validDigest (h : ValidDigest digest) : trimPadding digest = digest := by
  obtain ⟨text, rfl, hlen, hplain⟩ := h
  obtain ⟨front, last, hlast⟩ : ∃ front last, text.toList = front ++ [last] := by
    cases htext : text.toList using List.reverseRecOn with
    | nil =>
      rw [htext] at hlen
      cases hlen
    | append_singleton front last => exact ⟨front, last, rfl⟩
  have hne : last ≠ '=' := by
    rintro rfl
    rw [hlast] at hplain
    exact hplain (List.mem_append_right _ (List.mem_singleton.mpr rfl))
  unfold trimPadding
  rw [String.toList_append, hlast, ← List.append_assoc, List.reverse_append, List.reverse_singleton,
    List.singleton_append, List.dropWhile_cons, if_neg (by simpa using hne), List.reverse_cons,
    List.reverse_reverse, List.append_assoc, ← hlast, ← String.toList_append, String.ofList_toList]

/-- Valid digests match if they are the same text. -/
theorem transferDigestsMatch_iff (hleft : ValidDigest left)
    (hright : ValidDigest right) : transferDigestsMatch left right = true ↔ left = right := by
  unfold transferDigestsMatch
  rw [trimPadding_of_validDigest hleft, trimPadding_of_validDigest hright, decide_eq_true_iff]

/-- `TransferTerminal::validate`: the count, the size and the digest that close a transfer. -/
structure ValidTerminal (finalSeq size : Nat) (digest : String) : Prop where
  size_le : size ≤ 9007199254740991
  empty : finalSeq = 0 ↔ size = 0
  final_le : finalSeq ≤ size
  digest : ValidDigest digest

end Transfer
