import Spaceless.Logic.Content

/-!
# Chunks of a sequence

A sequence is cut into chunks of one size; the last one may be shorter.  The
chunks one after another are the sequence again, and a chunk that is written
at its own position lands just after the chunks before it.
-/

namespace Spaceless
namespace Logic
namespace Content

variable {α : Type}

/-- The chunk with the number. -/
def chunk (content : List α) (size index : Nat) : List α :=
  readAt content (index * size) size

/-- The first chunks. -/
def chunks (content : List α) (size count : Nat) : List (List α) :=
  (List.range count).map (chunk content size)

@[simp] theorem length_chunks (content : List α) (size count : Nat) :
    (chunks content size count).length = count := by
  simp [chunks]

theorem chunks_succ (content : List α) (size count : Nat) :
    chunks content size (count + 1) =
      chunks content size count ++ [chunk content size count] := by
  simp [chunks, List.range_succ]

theorem flatten_chunks (content : List α) (size count : Nat) :
    (chunks content size count).flatten = content.take (count * size) := by
  induction count with
  | zero => simp [chunks]
  | succ count inductionHypothesis =>
      rw [chunks_succ, List.flatten_append, inductionHypothesis, Nat.succ_mul,
        List.take_add]
      simp [chunk, readAt]

/-- All chunks of a content that fills them. -/
theorem flatten_chunks_of_le {content : List α} {size count : Nat}
    (fits : content.length ≤ count * size) :
    (chunks content size count).flatten = content := by
  rw [flatten_chunks, List.take_of_length_le fits]

/-- A chunk that the content fills has the full size. -/
theorem length_chunk {content : List α} {size index : Nat}
    (full : (index + 1) * size ≤ content.length) :
    (chunk content size index).length = size := by
  rw [Nat.succ_mul] at full
  rw [chunk, length_readAt]
  omega

/-- Every sequence of the list but the last one has the size. -/
def FullBeforeLast (size : Nat) (items : List (List α)) : Prop :=
  ∀ item ∈ items.dropLast, item.length = size

instance (size : Nat) (items : List (List α)) :
    Decidable (FullBeforeLast size items) :=
  inferInstanceAs (Decidable (∀ item ∈ items.dropLast, item.length = size))

/-- Cutting a content that needs the last chunk. -/
theorem fullBeforeLast_chunks {content : List α} {size count : Nat}
    (needed : (count - 1) * size ≤ content.length) :
    FullBeforeLast size (chunks content size count) := by
  cases count with
  | zero => simp [FullBeforeLast, chunks]
  | succ count =>
      rw [FullBeforeLast, chunks_succ, List.dropLast_concat]
      intro item present
      obtain ⟨index, inside, rfl⟩ := List.mem_map.mp present
      apply length_chunk
      calc (index + 1) * size
          ≤ count * size :=
            Nat.mul_le_mul_right size (List.mem_range.mp inside)
        _ ≤ content.length := needed

theorem length_flatten_of_full {size : Nat} {items : List (List α)}
    (full : ∀ item ∈ items, item.length = size) :
    items.flatten.length = items.length * size := by
  induction items with
  | nil => simp
  | cons item items inductionHypothesis =>
      have tail := inductionHypothesis fun other present =>
        full other (List.mem_cons_of_mem item present)
      rw [List.flatten_cons, List.length_append, tail,
        full item List.mem_cons_self, List.length_cons, Nat.succ_mul]
      omega

/-- A write just after what was written before. -/
theorem writeAt_append (filler : α) (written rest items : List α) :
    writeAt filler (written ++ rest) written.length items =
      written ++ items ++ rest.drop items.length := by
  rw [writeAt_of_le filler items (by simp)]
  simp [List.drop_append]

theorem chunk_zero (content : List α) (size : Nat) :
    chunk content size 0 = content.take size := by
  rw [chunk, readAt, Nat.zero_mul, List.drop_zero]

theorem chunk_succ (content : List α) (size index : Nat) :
    chunk content size (index + 1) = chunk (content.drop size) size index := by
  rw [chunk, chunk, readAt, readAt, List.drop_drop, Nat.succ_mul,
    Nat.add_comm size]

/-- The chunks of what lies behind the first one. -/
theorem chunks_cons (content : List α) (size count : Nat) :
    chunks content size (count + 1) =
      content.take size :: chunks (content.drop size) size count := by
  rw [chunks, List.range_succ_eq_map, List.map_cons, List.map_map, chunk_zero]
  congr 1
  apply List.map_congr_left
  intro index inside
  exact chunk_succ content size index

/-- What follows the chunks does not matter to them. -/
theorem chunks_append {content : List α} {size count : Nat}
    (fits : count * size ≤ content.length) (rest : List α) :
    chunks (content ++ rest) size count = chunks content size count := by
  apply List.map_congr_left
  intro index inside
  have before : (index + 1) * size ≤ content.length :=
    Nat.le_trans (Nat.mul_le_mul_right size (List.mem_range.mp inside)) fits
  rw [Nat.succ_mul] at before
  rw [chunk, chunk, readAt, readAt, List.drop_append_of_le_length (by omega),
    List.take_append_of_le_length]
  rw [List.length_drop]
  omega

/-- The first chunks one after another, each of them processed by itself. -/
def mapChunks (process : List α → List α) (content : List α)
    (size count : Nat) : List α :=
  ((chunks content size count).map process).flatten

section MapChunks

variable {process : List α → List α}

@[simp] theorem mapChunks_zero (content : List α) (size : Nat) :
    mapChunks process content size 0 = [] := rfl

theorem mapChunks_succ (content : List α) (size count : Nat) :
    mapChunks process content size (count + 1) =
      process (content.take size) ++
        mapChunks process (content.drop size) size count := by
  rw [mapChunks, chunks_cons, List.map_cons, List.flatten_cons]
  rfl

/-- The last chunk comes behind the others. -/
theorem mapChunks_concat (content : List α) (size count : Nat) :
    mapChunks process content size (count + 1) =
      mapChunks process content size count ++
        process (chunk content size count) := by
  rw [mapChunks, chunks_succ, List.map_append, List.flatten_append,
    List.map_singleton, List.flatten_singleton]
  rfl

theorem mapChunks_append {content : List α} {size count : Nat}
    (fits : count * size ≤ content.length) (rest : List α) :
    mapChunks process (content ++ rest) size count =
      mapChunks process content size count := by
  rw [mapChunks, chunks_append fits]
  rfl

theorem length_mapChunks {size count : Nat} {content : List α}
    (keeps : ∀ item, item.length = size → (process item).length = size)
    (fits : count * size ≤ content.length) :
    (mapChunks process content size count).length = count * size := by
  induction count generalizing content with
  | zero => rw [mapChunks_zero, Nat.zero_mul, List.length_nil]
  | succ count inductionHypothesis =>
      rw [Nat.succ_mul] at fits
      have first : (content.take size).length = size := by
        rw [List.length_take]
        omega
      have rest : count * size ≤ (content.drop size).length := by
        rw [List.length_drop]
        omega
      rw [mapChunks_succ, List.length_append, keeps _ first,
        inductionHypothesis rest, Nat.succ_mul, Nat.add_comm]

/-- Chunks that are processed and then processed back. -/
theorem mapChunks_mapChunks {back : List α → List α} {size count : Nat}
    {content : List α}
    (keeps : ∀ item, item.length = size → (process item).length = size)
    (inverts : ∀ item, item.length = size → back (process item) = item)
    (same : content.length = count * size) :
    mapChunks back (mapChunks process content size count) size count =
      content := by
  induction count generalizing content with
  | zero =>
      rw [Nat.zero_mul, List.length_eq_zero_iff] at same
      rw [same, mapChunks_zero]
  | succ count inductionHypothesis =>
      rw [Nat.succ_mul] at same
      have first : (content.take size).length = size := by
        rw [List.length_take]
        omega
      have rest : (content.drop size).length = count * size := by
        rw [List.length_drop]
        omega
      rw [mapChunks_succ, mapChunks_succ, List.take_left' (keeps _ first),
        List.drop_left' (keeps _ first), inverts _ first,
        inductionHypothesis rest, List.take_append_drop]

end MapChunks

end Content

end Logic
end Spaceless
