import Neurlang.Model.Parallel
import Neurlang.Data.Dataset

namespace Neurlang
namespace Model

/-!
# The two byte tokenizers

The trainer's `ParallelDataset.__getitem__` and `tokenize` of
`test_inference.py` both take the UTF-8 bytes of the text, cut them at the
sequence length, and pad with the id `256` up to it; the second wraps the list
in a batch of one.  Both are `padTokens` here.  The theorem below says what
that list is, and that its ids are the byte values and the embedding's
`padding_idx`, all below the default `vocab_size = 261`.

A Python `str` may hold lone surrogates, on which `encode('utf-8')` raises in
both tokenizers; a Lean `String` holds only Unicode scalar values, so that
case is outside the model.
-/

open Data

/-- The UTF-8 bytes of a text, as `text.encode('utf-8')` gives them. -/
def utf8Bytes (text : String) : List Nat :=
  text.toUTF8.toList.map UInt8.toNat

/-- `tokenize(text, max_len)` of `test_inference.py` (default `max_len = 256`):
the padded bytes as an `int64` array of one row. -/
def tokenize (text : String) (maxLen : Nat) : List (List Nat) :=
  [ParallelDataset.padTokens (utf8Bytes text) maxLen]

theorem utf8Bytes_lt (text : String) : ∀ byte ∈ utf8Bytes text, byte < 256 := by
  intro byte member
  obtain ⟨b, -, rfl⟩ := List.mem_map.mp member
  exact b.toNat_lt

/-- The padded list is the first bytes followed by padding ids. -/
theorem padTokens_eq (bytes : List Nat) (maxLen : Nat) :
    ParallelDataset.padTokens bytes maxLen =
      bytes.take maxLen ++ List.replicate (maxLen - bytes.length) paddingIdx := by
  simp only [ParallelDataset.padTokens, List.length_take]
  split_ifs with short
  · rw [show maxLen - min maxLen bytes.length = maxLen - bytes.length by omega]
    rfl
  · rw [show maxLen - bytes.length = 0 by omega, List.replicate_zero, List.append_nil]

theorem length_padTokens (bytes : List Nat) (maxLen : Nat) :
    (ParallelDataset.padTokens bytes maxLen).length = maxLen := by
  rw [padTokens_eq, List.length_append, List.length_take, List.length_replicate]
  omega

/-- Every entry of the padded list is at most the padding id `256`. -/
theorem le_of_mem_padTokens {text : String} {maxLen token : Nat}
    (member : token ∈ ParallelDataset.padTokens (utf8Bytes text) maxLen) : token ≤ 256 := by
  rw [padTokens_eq] at member
  rcases List.mem_append.mp member with byte | padding
  · exact (utf8Bytes_lt text token (List.mem_of_mem_take byte)).le
  · rw [List.eq_of_mem_replicate padding]
    rfl

/-- So is its default. -/
theorem getD_padTokens_le (text : String) (maxLen j : Nat) :
    (ParallelDataset.padTokens (utf8Bytes text) maxLen).getD j 0 ≤ 256 := by
  rw [List.getD_eq_getElem?_getD]
  cases found : (ParallelDataset.padTokens (utf8Bytes text) maxLen)[j]? with
  | none => simp
  | some token => exact le_of_mem_padTokens (List.getElem?_mem found)

/-- The tokens `__getitem__` returns are the padded bytes of the text. -/
theorem getItem_tokens {maxSeqLen numSlots : Nat} {text : String} {instructions category : JsonValue}
    {item : Item} (done : ParallelDataset.getItem maxSeqLen numSlots ⟨.str text, instructions, category⟩ = .ok item) :
    item.tokens = ParallelDataset.padTokens (utf8Bytes text) maxSeqLen := by
  simp only [ParallelDataset.getItem, ParallelDataset.encodeText, ok_bind, bind_eq_ok] at done
  obtain ⟨_, _, _, _, _, _, made⟩ := done
  cases made
  rfl

/-- For every text and length `L`, `tokenize(text, L)[0]` and the token list of
`__getitem__` with `max_seq_len = L` are the same list: the first
`min(|utf8(text)|, L)` bytes, then the padding id up to exactly `L` entries,
every id below `vocab_size = 261`. -/
theorem tokenizers_agree (text : String) (maxLen : Nat) :
    (tokenize text maxLen)[0]? = some ((utf8Bytes text).take maxLen ++
      List.replicate (maxLen - (utf8Bytes text).length) paddingIdx) ∧
      (∀ numSlots instructions category item,
        ParallelDataset.getItem maxLen numSlots ⟨.str text, instructions, category⟩ = .ok item ->
          (tokenize text maxLen)[0]? = some item.tokens) ∧
      ∀ tokens ∈ tokenize text maxLen, tokens.length = maxLen ∧ ∀ token ∈ tokens, token < 261 := by
  have padded := padTokens_eq (utf8Bytes text) maxLen
  refine ⟨by rw [tokenize, ← padded]; rfl, fun _ _ _ _ done => by rw [getItem_tokens done]; rfl, ?_⟩
  intro tokens listed
  rw [tokenize, List.mem_singleton, padded] at listed
  subst listed
  refine ⟨by simp only [List.length_append, List.length_take, List.length_replicate]; omega, fun token member => ?_⟩
  rcases List.mem_append.mp member with byte | padding
  · have := utf8Bytes_lt text token (List.mem_of_mem_take byte)
    omega
  · rw [List.eq_of_mem_replicate padding]
    decide

end Model
end Neurlang
