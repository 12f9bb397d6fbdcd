import TextKit.Proofs.Ascii85.RoundTrip

/-!
# Bytes may be written in parts

The text of a full group depends on nothing but its four bytes. So the texts of two byte strings,
one behind the other, are the text of both together, provided that the first one ends where a group
does. If it does not, its last bytes are filled up with zero bytes, although they would have to
share a group with the bytes behind them.

A long byte string is written in parts of a fixed size, at the same time. It does not matter how
the parts are found, or when each of them is written. What is needed is that they are put together
in their order, and that all of them but the last hold whole groups.
-/

namespace TextKit.Ascii85

/-- A byte string in front is written apart if it ends with a group. -/
theorem encode_append {a : Bytes} (h : 4 ∣ a.length) (b : Bytes) :
    encode (a ++ b) = encode a ++ encode b := by
  induction a using group_induction with
  | tail last hlast =>
      have hzero : last.length = 0 := Nat.eq_zero_of_dvd_of_lt h hlast
      rw [List.length_eq_zero_iff.mp hzero]
      rfl
  | group first rest hfirst ih =>
      rw [List.length_append, hfirst] at h
      have hrest : 4 ∣ rest.length := (Nat.dvd_add_right (Nat.dvd_refl 4)).mp h
      rw [List.append_assoc, encode_append_of_length_eq hfirst, encode_append_of_length_eq hfirst,
        ih hrest, List.append_assoc]

/-- Consecutive parts of a byte string, all of the same size. Only what is left at the end may be
a shorter part. -/
inductive Chunking (size : Nat) : Bytes → List Bytes → Prop where
  | nil : Chunking size [] []
  | last {part : Bytes} (ne_nil : part ≠ []) (length_lt : part.length < size) :
      Chunking size part [part]
  | cons {part bytes : Bytes} {parts : List Bytes} (length_eq : part.length = size)
      (rest : Chunking size bytes parts) : Chunking size (part ++ bytes) (part :: parts)

section Chunks

variable {size : Nat} {bytes : Bytes} {parts : List Bytes}

/-- Parts that hold whole groups are written apart. -/
theorem Chunking.flatMap_encode (h : Chunking size bytes parts) (hsize : 4 ∣ size) :
    parts.flatMap encode = encode bytes := by
  induction h with
  | nil => rfl
  | last => rw [List.flatMap_singleton]
  | cons length_eq _ ih => rw [List.flatMap_cons, ih, encode_append (length_eq ▸ hsize)]

/-- Parts are taken from the front as long as there is enough for one. -/
theorem chunking_chunks (positive : 0 < size) (bytes : Bytes) :
    Chunking size bytes (chunks size positive bytes) := by
  fun_induction chunks size positive bytes with
  | case1 => exact .nil
  | case2 b rest ih =>
      by_cases hfull : size ≤ (b :: rest).length
      · have hcons := Chunking.cons (List.length_take_of_le hfull) ih
        rwa [List.take_append_drop] at hcons
      · have hshort := Nat.lt_of_not_le hfull
        rw [List.take_of_length_le (Nat.le_of_lt hshort),
          List.drop_of_length_le (Nat.le_of_lt hshort), chunks]
        exact .last (List.cons_ne_nil b rest) hshort

/-- Writing the parts at the same time is writing each of them. -/
theorem encodeChunks_eq (positive : 0 < size) (bytes : Bytes) :
    encodeChunks size positive bytes = (chunks size positive bytes).flatMap encode := by
  rw [encodeChunks, List.flatMap_map]
  rfl

theorem encodeChunks_eq_encode (positive : 0 < size) (hsize : 4 ∣ size) (bytes : Bytes) :
    encodeChunks size positive bytes = encode bytes := by
  rw [encodeChunks_eq, (chunking_chunks positive bytes).flatMap_encode hsize]

end Chunks

/-- Writing in parts gives the same text as writing at once. This holds for the parts that a long
byte string has, for all parts whose size is a multiple of four, and for any two byte strings of
which the first one ends with a group. -/
theorem encode_in_parts (bytes : Bytes) :
    encodeParallel bytes = encode bytes ∧
    (∀ (size : Nat) (positive : 0 < size), 4 ∣ size →
      Chunking size bytes (chunks size positive bytes) ∧
      encodeChunks size positive bytes = encode bytes ∧
      ∀ parts, Chunking size bytes parts → parts.flatMap encode = encode bytes) ∧
    ∀ a b : Bytes, 4 ∣ a.length → encode (a ++ b) = encode a ++ encode b := by
  refine ⟨?_, ?_, fun a b h => encode_append h b⟩
  · unfold encodeParallel
    split
    · rfl
    · exact encodeChunks_eq_encode (by decide) (by decide) bytes
  · intro size positive hsize
    exact ⟨chunking_chunks positive bytes, encodeChunks_eq_encode positive hsize bytes,
      fun parts h => h.flatMap_encode hsize⟩

/-- A zero group ends at the end of a part, and the last part is a single byte. -/
theorem encode_in_parts_of_zero_group :
    Chunking 8 [1, 2, 3, 4, 0, 0, 0, 0, 0] [[1, 2, 3, 4, 0, 0, 0, 0], [0]] ∧
    encode [1, 2, 3, 4, 0, 0, 0, 0, 0] = ['!', '<', 'N', '?', '+', 'z', '!', '!'] ∧
    encodeChunks 8 (by decide) [1, 2, 3, 4, 0, 0, 0, 0, 0] =
      ['!', '<', 'N', '?', '+', 'z', '!', '!'] ∧
    encode ([0, 0, 0, 0] ++ [0]) = ['z'] ++ ['!', '!'] := by
  have hchunking : Chunking 8 [1, 2, 3, 4, 0, 0, 0, 0, 0] [[1, 2, 3, 4, 0, 0, 0, 0], [0]] := by
    change Chunking 8 ([1, 2, 3, 4, 0, 0, 0, 0] ++ [0]) _
    exact .cons rfl (.last (by decide) (by decide))
  obtain ⟨-, hparts, happend⟩ := encode_in_parts [1, 2, 3, 4, 0, 0, 0, 0, 0]
  obtain ⟨-, hat, hjoin⟩ := hparts 8 (by decide) (by decide)
  have htext := hjoin _ hchunking
  refine ⟨hchunking, ?_, ?_, ?_⟩
  · rw [← htext]
    decide
  · rw [hat, ← htext]
    decide
  · rw [happend [0, 0, 0, 0] [0] (by decide)]
    decide

end TextKit.Ascii85
