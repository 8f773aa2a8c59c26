import Mathlib.Data.List.Basic

/-! Readers that hand out a fixed sequence in pieces of their own choice. A script says how large
each piece is and whether the end is reported with the last piece or by a read of its own; a read
may also answer nothing. What a loop over such a reader collects does not depend on the script,
except for the moment at which it learns of the end. -/
namespace InteractiveProxy.ScriptedReader
open List

variable {α : Type}

/-- A reader with what it has still to hand out. A run makes finitely many reads, and `answers` has
the sizes the reader chooses for them, zero for an idle read; when they are used up it fills every
request. -/
structure Reader (α : Type) where
  rest : List α
  answers : List ℕ
  eofWithData : Bool
  seekable : Bool

structure Answer (α : Type) where
  data : List α
  eof : Bool
  reader : Reader α

namespace Reader

variable (r : Reader α) (room : ℕ)

def size : ℕ :=
  match r.answers with
  | [] => room
  | n :: _ => min n room

def read : Answer α where
  data := r.rest.take (r.size room)
  eof := 0 < r.size room && (r.rest.drop (r.size room)).isEmpty && (r.rest.isEmpty || r.eofWithData)
  reader := { r with rest := r.rest.drop (r.size room), answers := r.answers.tail }

def seek (n : ℕ) : Reader α := { r with rest := r.rest.drop n }

/-- What is left of the script and of the data; no read that leaves the end unreported keeps it. -/
def work : ℕ := r.answers.length + r.rest.length

lemma size_le : r.size room ≤ room := by
  unfold size
  split
  · exact Nat.le_refl _
  · exact Nat.min_le_right _ _

lemma read_rest : (r.read room).reader.rest = r.rest.drop (r.read room).data.length := by
  simp only [read, length_take, drop_eq_drop_iff]
  omega

lemma read_data : (r.read room).data = r.rest.take (r.read room).data.length := by
  simp only [read, length_take, take_eq_take_iff]
  omega

lemma read_length_le :
    (r.read room).data.length ≤ room ∧ (r.read room).data.length ≤ r.rest.length := by
  simp only [read, length_take]
  exact ⟨Nat.le_trans (Nat.min_le_left _ _) (r.size_le room), Nat.min_le_right _ _⟩

variable {r : Reader α} {n block : ℕ}

lemma read_eof (hrest : r.rest ≠ []) (room : ℕ) :
    (r.read room).eof ↔ (r.read room).reader.rest = [] ∧ r.eofWithData := by
  have hpos : r.rest.drop (r.size room) = [] → 0 < r.size room := by
    intro hdrop
    by_contra hzero
    rw [Nat.eq_zero_of_not_pos hzero] at hdrop
    exact hrest hdrop
  simp only [read, Bool.and_eq_true, Bool.or_eq_true, decide_eq_true_eq, List.isEmpty_iff, hrest, false_or]
  constructor
  · rintro ⟨⟨_, hdrop⟩, heof⟩
    exact ⟨hdrop, heof⟩
  · rintro ⟨hdrop, heof⟩
    exact ⟨⟨hpos hdrop, hdrop⟩, heof⟩

lemma read_work_le (r : Reader α) (room : ℕ) :
    (r.read room).reader.work + (r.read room).data.length ≤ r.work := by
  simp only [read, work, length_tail, length_drop, length_take]
  omega

lemma read_work (hrest : r.rest ≠ []) {room : ℕ} (hroom : 0 < room) :
    (r.read room).reader.work < r.work := by
  have hlen := length_pos_iff.mpr hrest
  cases hanswers : r.answers with
  | nil =>
    simp only [read, work, size, hanswers, tail_nil, length_drop]
    omega
  | cons n rest =>
    simp only [read, work, hanswers, tail_cons, length_cons, length_drop]
    omega

lemma seek_work (hn : 0 < n) (hle : n ≤ r.rest.length) : (r.seek n).work < r.work := by
  simp only [seek, work, length_drop]
  omega

/-- Reads until `n` have been handed out or the end is reported, at most `block` in a read. -/
def pullN (block : ℕ) : ℕ → ℕ → Reader α → Answer α
  | 0, _, r => ⟨[], false, r⟩
  | fuel + 1, n, r =>
    if n = 0 then ⟨[], false, r⟩
    else
      let got := r.read (min n block)
      if got.eof then got
      else
        let more := pullN block fuel (n - got.data.length) got.reader
        { more with data := got.data ++ more.data }

def pull (r : Reader α) (block n : ℕ) : Answer α := pullN block (r.work + 1) n r

/-- What comes back when `n` of what is left have been taken and nothing else has happened; `n` may
be all of it. -/
structure Took (r : Reader α) (n : ℕ) (got : Answer α) : Prop where
  le : n ≤ r.rest.length
  data : got.data = r.rest.take n
  rest : got.reader.rest = r.rest.drop n
  eof : got.eof ↔ 0 < n ∧ n = r.rest.length ∧ r.eofWithData
  eofWithData : got.reader.eofWithData = r.eofWithData
  seekable : got.reader.seekable = r.seekable
  work : got.reader.work + n ≤ r.work

lemma Took.length {got : Answer α} (h : Took r n got) : got.data.length = n := by
  rw [h.data, length_take, Nat.min_eq_left h.le]

lemma took_zero (r : Reader α) : Took r 0 ⟨[], false, r⟩ :=
  ⟨Nat.zero_le _, take_zero.symm, rfl, by simp, rfl, rfl, Nat.le_refl _⟩

lemma read_took (hrest : r.rest ≠ []) (room : ℕ) :
    Took r (r.read room).data.length (r.read room) := by
  have hpos := length_pos_iff.mpr hrest
  have hlen := r.read_length_le room
  refine ⟨hlen.2, r.read_data room, r.read_rest room, ?_, rfl, rfl, r.read_work_le room⟩
  rw [r.read_eof hrest, r.read_rest, drop_eq_nil_iff]
  constructor
  · rintro ⟨hall, hwith⟩
    exact ⟨by omega, by omega, hwith⟩
  · rintro ⟨-, hall, hwith⟩
    exact ⟨by omega, hwith⟩

lemma read_spec (r : Reader α) (room : ℕ) (hrest : 0 < r.rest.length) (hroom : 0 < room) :
    Took r (r.read room).data.length (r.read room) ∧ (r.read room).data.length ≤ room ∧
      (r.read room).reader.work < r.work :=
  have hne := length_pos_iff.mp hrest
  ⟨read_took hne room, (r.read_length_le room).1, read_work hne hroom⟩

lemma Took.trans {m : ℕ} {first more : Answer α} (h : Took r m first) (heof : first.eof = false)
    (hmore : Took first.reader n more) :
    Took r (m + n) { more with data := first.data ++ more.data } := by
  have hlate := mt h.eof.mpr (by simp [heof])
  have hle := hmore.le
  have hlast := hmore.eof
  rw [h.rest, length_drop] at hle hlast
  have hm := h.le
  refine ⟨by omega, ?_, ?_, ?_, hmore.eofWithData.trans h.eofWithData, hmore.seekable.trans h.seekable, ?_⟩
  · rw [h.data, hmore.data, h.rest, ← take_add]
  · rw [hmore.rest, h.rest, drop_drop]
  · rw [hlast, h.eofWithData]
    constructor
    · rintro ⟨hpos, hall, hwith⟩
      exact ⟨by omega, by omega, hwith⟩
    · rintro ⟨hpos, hall, hwith⟩
      refine ⟨?_, by omega, hwith⟩
      by_contra hzero
      exact hlate ⟨by omega, by omega, hwith⟩
  · have hfirst := h.work
    have hsecond := hmore.work
    dsimp only
    omega

lemma pullN_took (hblock : 0 < block) {fuel : ℕ} (hfuel : r.work < fuel) (hle : n ≤ r.rest.length) :
    Took r n (pullN block fuel n r) := by
  induction fuel generalizing n r with
  | zero => omega
  | succ fuel ih =>
    unfold pullN
    split
    · rename_i hzero
      rw [hzero]
      exact took_zero r
    · obtain ⟨hgot, hlen, hwork⟩ := r.read_spec (min n block) (by omega) (by omega)
      dsimp only
      split
      · -- the end is reported only with the last of what is left, so the request was for all of it
        rename_i heof
        have hall := (hgot.eof.mp heof).2.1
        have hn : (r.read (min n block)).data.length = n := by omega
        rwa [hn] at hgot
      · rename_i heof
        have hleft :
            n - (r.read (min n block)).data.length ≤ (r.read (min n block)).reader.rest.length := by
          rw [hgot.rest, length_drop]
          omega
        have htook := hgot.trans (by simpa using heof) (ih (by omega) hleft)
        rwa [Nat.add_sub_cancel' (by omega)] at htook

lemma pull_took (r : Reader α) (block n : ℕ) (hblock : 0 < block) (hle : n ≤ r.rest.length) :
    Took r n (r.pull block n) :=
  pullN_took hblock (Nat.lt_succ_self _) hle

end Reader

end InteractiveProxy.ScriptedReader
