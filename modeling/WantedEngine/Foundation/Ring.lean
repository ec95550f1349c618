import Mathlib.Data.List.Rotate
/-!
# A ring as a queue

A buffer of a fixed size with a read position and a length holds a queue: its contents begin at the
read position and go on at the start of the buffer behind its end. A transfer copies one or two
pieces of the buffer; that it takes the contents from their front, or adds to their end, does not
depend on where it wraps.
-/
namespace WantedEngine.Foundation

open List Nat

universe u

/-- A buffer of a size, of which a part is occupied. -/
structure Ring (α : Type u) (size : Nat) where
  buf : List α
  rpos : Nat
  len : Nat
  length_buf : buf.length = size
  rpos_lt : rpos < size
  len_le : len ≤ size
  deriving DecidableEq

namespace Ring

variable {α : Type u} {size : Nat}

/-- The ring whose buffer is filled with one value and holds nothing. -/
def empty (fill : α) (positive : 0 < size) : Ring α size :=
  ⟨List.replicate size fill, 0, 0, List.length_replicate, positive, Nat.zero_le _⟩

/-- `memcpy` of some items to a place of the buffer. -/
def copy (buf : List α) (pos : Nat) (items : List α) : List α :=
  buf.take pos ++ items ++ buf.drop (pos + items.length)

variable (r : Ring α size)

/-- The items that are held, oldest first. -/
def contents : List α := (r.buf.rotate r.rpos).take r.len

/-- Take items from the front, in one piece or two. -/
def read (count : Nat) : List α × Ring α size :=
  let n := min count r.len
  let first := size - r.rpos
  let items :=
    if n ≤ first then (r.buf.drop r.rpos).take n
    else (r.buf.drop r.rpos).take first ++ r.buf.take (n - first)
  (items, { r with
    rpos := (r.rpos + n) % size
    len := r.len - n
    rpos_lt := Nat.mod_lt _ (Nat.zero_lt_of_lt r.rpos_lt)
    len_le := Nat.le_trans (Nat.sub_le _ _) r.len_le })

/-- How many items are taken of those offered. -/
def room (items : List α) : Nat := min items.length (size - r.len)

/-- The buffer with items added at the end, in one piece or two. -/
def written (items : List α) : List α :=
  let wpos := (r.rpos + r.len) % size
  let first := size - wpos
  if items.length ≤ first then copy r.buf wpos items
  else copy (copy r.buf wpos (items.take first)) 0 (items.drop first)

variable {r} {buf items : List α}

lemma getElem?_copy {pos : Nat} (fits : pos + items.length ≤ buf.length) (i : Nat) :
    (copy buf pos items)[i]? =
      if pos ≤ i ∧ i < pos + items.length then items[i - pos]? else buf[i]? := by
  have before : (buf.take pos).length = pos := by rw [length_take]; omega
  unfold copy
  by_cases low : i < pos
  · rw [if_neg (by omega), append_assoc, List.getElem?_append_left (by omega),
      List.getElem?_take_of_lt low]
  rw [append_assoc, List.getElem?_append_right (by omega), before]
  by_cases inside : i < pos + items.length
  · rw [if_pos (by omega), List.getElem?_append_left (by omega)]
  rw [if_neg (by omega), List.getElem?_append_right (by omega), List.getElem?_drop]
  congr 1
  omega

lemma length_copy {pos : Nat} (fits : pos + items.length ≤ buf.length) :
    (copy buf pos items).length = buf.length := by
  simp only [copy, length_append, length_take, length_drop]
  omega

variable (r) in
lemma length_contents : r.contents.length = r.len := by
  rw [contents, List.length_take, List.length_rotate, r.length_buf]
  exact Nat.min_eq_left r.len_le

/-- What is taken is the front of the contents. -/
lemma read_fst (count : Nat) : (r.read count).1 = r.contents.take count := by
  have whole := r.length_buf
  have low := r.rpos_lt
  have most := r.len_le
  have tail : (r.buf.drop r.rpos).length = size - r.rpos := by rw [length_drop, whole]
  rw [contents, take_take, rotate_eq_drop_append_take (by omega)]
  unfold read
  dsimp only
  split
  · rename_i one
    rw [take_append_of_le_length (by omega)]
  rename_i two
  have wrapped : (r.buf.take r.rpos).take (min count r.len - (size - r.rpos)) =
      r.buf.take (min count r.len - (size - r.rpos)) := by
    rw [take_take]
    congr 1
    omega
  have first : (r.buf.drop r.rpos).take (min count r.len) = r.buf.drop r.rpos :=
    take_of_length_le (by omega)
  rw [take_of_length_le (le_of_eq tail), take_append, tail, wrapped, first]

/-- What is left is the rest of the contents. -/
lemma contents_read (count : Nat) : (r.read count).2.contents = r.contents.drop count := by
  have whole := r.length_buf
  have most := r.len_le
  have turned : r.buf.rotate ((r.rpos + min count r.len) % size) =
      (r.buf.rotate r.rpos).rotate (min count r.len) := by
    have same := r.buf.rotate_mod (r.rpos + min count r.len)
    rw [whole] at same
    rw [same, rotate_rotate]
  unfold read contents
  dsimp only
  rw [turned, rotate_eq_drop_append_take (by rw [length_rotate]; omega),
    take_append_of_le_length (by rw [length_drop, length_rotate]; omega),
    drop_take]
  by_cases few : count ≤ r.len
  · rw [Nat.min_eq_left few]
  · have none_ : r.len - count = 0 := by omega
    rw [Nat.min_eq_right (by omega), Nat.sub_self, none_, take_zero, take_zero]

lemma getElem?_contents (i : Nat) :
    r.contents[i]? = if i < r.len then r.buf[(i + r.rpos) % size]? else none := by
  have whole := r.length_buf
  have most := r.len_le
  rw [contents, List.getElem?_take]
  split
  · rw [List.getElem?_rotate (by omega), whole]
  · rfl

/-- The first item, and the others. -/
lemma contents_cons (some_ : 0 < r.len) (default : α) :
    r.contents = r.buf.getD r.rpos default :: (r.read 1).2.contents := by
  have inside : r.rpos < r.buf.length := r.rpos_lt.trans_eq r.length_buf.symm
  have first : r.contents.head? = some (r.buf.getD r.rpos default) := by
    rw [head?_eq_getElem?, getElem?_contents, if_pos some_, Nat.zero_add, mod_eq_of_lt r.rpos_lt,
      getD_eq_getElem?_getD, getElem?_eq_getElem inside, Option.getD_some]
  rw [contents_read, drop_one, cons_head?_tail first]

/-- A place of the ring counted from the read position. -/
lemma wrap_eq {pos size : Nat} (near : pos < 2 * size) :
    pos % size = if pos < size then pos else pos - size := by
  split
  · rename_i inside
    exact mod_eq_of_lt inside
  · rename_i behind
    rw [mod_eq_sub_mod (by omega), mod_eq_of_lt (by omega)]

variable (r) in
/-- Change the item at a place counted from the read position. -/
def modify (i : Nat) (f : α → α) : Ring α size :=
  { r with
    buf := r.buf.modify ((r.rpos + i) % size) f
    length_buf := (length_modify ..).trans r.length_buf }

/-- A change in the ring is one of the contents. -/
lemma contents_modify {i : Nat} (inside : i < size) (f : α → α) :
    (r.modify i f).contents = r.contents.modify i f := by
  have most := r.len_le
  have low := r.rpos_lt
  apply ext_getElem?
  intro j
  rw [getElem?_modify, getElem?_contents, getElem?_contents]
  show (if j < r.len then (r.buf.modify ((r.rpos + i) % size) f)[(j + r.rpos) % size]? else none) = _
  split
  · have here := wrap_eq (show r.rpos + i < 2 * size by omega)
    have there := wrap_eq (show j + r.rpos < 2 * size by omega)
    have same : (r.rpos + i) % size = (j + r.rpos) % size ↔ i = j := by
      split at here <;> split at there <;> omega
    simp only [getElem?_modify, same]
  · split <;> rfl

/-- The buffer with items added, counted from the read position. -/
lemma getElem?_written {items : List α} (fits : r.len + items.length ≤ size) {i : Nat}
    (inside : i < size) :
    (r.written items)[(i + r.rpos) % size]? =
      if r.len ≤ i ∧ i < r.len + items.length then items[i - r.len]?
      else r.buf[(i + r.rpos) % size]? := by
  have whole := r.length_buf
  have low := r.rpos_lt
  have here := wrap_eq (show i + r.rpos < 2 * size by omega)
  have there := wrap_eq (show r.rpos + r.len < 2 * size by omega)
  unfold written
  dsimp only
  generalize (r.rpos + r.len) % size = wpos at there ⊢
  have start : wpos < size := by split at there <;> omega
  split
  · rename_i one
    rw [getElem?_copy (by omega)]
    split at here <;> split at there <;> split_ifs <;> first | rfl | omega | (congr 1; omega)
  rename_i two
  have head : (items.take (size - wpos)).length = size - wpos := by rw [length_take]; omega
  have back : (items.drop (size - wpos)).length = items.length - (size - wpos) :=
    length_drop
  rw [getElem?_copy (by rw [length_copy (by omega)]; omega), getElem?_copy (by omega),
    List.getElem?_drop, List.getElem?_take]
  split at here <;> split at there <;> split_ifs <;> first | rfl | omega | (congr 1; omega)

lemma length_written {items : List α} (fits : r.len + items.length ≤ size) :
    (r.written items).length = size := by
  have whole := r.length_buf
  have start : (r.rpos + r.len) % size < size := mod_lt _ (zero_lt_of_lt r.rpos_lt)
  unfold written
  dsimp only
  split
  · rw [length_copy (by omega)]
    exact whole
  have head : (items.take (size - (r.rpos + r.len) % size)).length =
      size - (r.rpos + r.len) % size := by rw [length_take]; omega
  rw [length_copy, length_copy (by omega)]
  · exact whole
  · rw [length_copy (by omega), length_drop]
    omega

variable (r) in
lemma fits_room (items : List α) : r.len + (items.take (r.room items)).length ≤ size := by
  have most := r.len_le
  rw [List.length_take, room]
  omega

variable (r) in
/-- Add items at the end, as many as there is room for. -/
def write (items : List α) : Ring α size :=
  { r with
    buf := r.written (items.take (r.room items))
    len := r.len + r.room items
    length_buf := length_written (r.fits_room items)
    len_le := by
      have most := r.len_le
      unfold room
      omega }

/-- What is added comes behind the contents. -/
lemma contents_write (items : List α) :
    (r.write items).contents = r.contents ++ items.take (r.room items) := by
  have fits := r.fits_room items
  have taken : (items.take (r.room items)).length = r.room items := by
    rw [length_take, room]
    omega
  apply ext_getElem?
  intro i
  rw [getElem?_contents]
  show (if i < r.len + r.room items then (r.written _)[(i + r.rpos) % size]? else none) = _
  by_cases old : i < r.len
  · rw [if_pos (by omega), getElem?_written fits (by omega), if_neg (by omega),
      List.getElem?_append_left (by rw [length_contents]; exact old), getElem?_contents, if_pos old]
  rw [List.getElem?_append_right (by rw [length_contents]; omega), length_contents]
  split
  · rename_i new
    rw [getElem?_written fits (by omega), if_pos (by omega)]
  · rename_i beyond
    rw [List.getElem?_eq_none (by omega)]

/-- One item is added where there is room. -/
lemma contents_write_one (free : r.len < size) (item : α) :
    (r.write [item]).contents = r.contents ++ [item] := by
  have one : r.room [item] = 1 := Nat.min_eq_left (Nat.le_sub_of_add_le' free)
  rw [contents_write, one, take_succ_cons, take_zero]

end Ring

end WantedEngine.Foundation
