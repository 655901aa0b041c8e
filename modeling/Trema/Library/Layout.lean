import Trema.Library.Bytes

namespace Trema.Library

inductive Field where
  | swap (n : Nat)
  | copy (n : Nat)
  | zero (n : Nat)
deriving DecidableEq, Repr

def Field.width : Field → Nat
  | .swap n => n
  | .copy n => n
  | .zero n => n

def Field.image : Field → Bytes → Nat → Bytes
  | .swap n, src, off => (slice src off n).reverse
  | .copy n, src, off => slice src off n
  | .zero n, _, _ => List.replicate n 0

namespace Layout

def size : List Field → Nat
  | [] => 0
  | f :: fs => f.width + size fs

def readEnd : List Field → Nat
  | [] => 0
  | .zero n :: fs => if readEnd fs = 0 then 0 else n + readEnd fs
  | f :: fs => f.width + readEnd fs

def cells : List Field → Bytes → Bytes
  | [], _ => []
  | .swap n :: fs, src => (src.take n).reverse ++ cells fs (src.drop n)
  | .copy n :: fs, src => src.take n ++ cells fs (src.drop n)
  | .zero n :: fs, src => List.replicate n 0 ++ cells fs (src.drop n)

def blank : List Field → Bytes → Bytes
  | [], _ => []
  | .zero n :: fs, src => List.replicate n 0 ++ blank fs (src.drop n)
  | f :: fs, src => src.take f.width ++ blank fs (src.drop f.width)

def fieldAt : List Field → Nat → Option Field
  | [], _ => none
  | f :: _, 0 => some f
  | f :: fs, off + 1 => if f.width ≤ off + 1 then fieldAt fs (off + 1 - f.width) else none

def convert {ε : Type} (fs : List Field) (m : Bytes) (p : Nat) : Run ε Bytes :=
  within m (p + readEnd fs) (cells fs (m.drop p))

theorem readEnd_le_size (fs : List Field) : readEnd fs ≤ size fs := by
  induction fs with
  | nil => simp [readEnd,size]
  | cons f fs ih =>
    cases f with
    | zero n =>
      simp only [readEnd,size,Field.width]
      split <;> omega
    | swap n =>
      simp only [readEnd,size,Field.width]
      omega
    | copy n =>
      simp only [readEnd,size,Field.width]
      omega

theorem cells_of_readEnd_zero {fs : List Field} (h : readEnd fs = 0) (a b : Bytes) :
    cells fs a = cells fs b := by
  induction fs generalizing a b with
  | nil => rfl
  | cons f fs ih =>
    cases f with
    | zero n =>
      have hr : readEnd fs = 0 := by
        simp only [readEnd] at h
        by_contra hne
        simp only [hne,if_false] at h
        omega
      simp only [cells,ih hr (a.drop n) (b.drop n)]
    | swap n =>
      simp only [readEnd,Field.width,Nat.add_eq_zero_iff] at h
      simp only [cells,h.1,List.take_zero,List.drop_zero,ih h.2 a b]
    | copy n =>
      simp only [readEnd,Field.width,Nat.add_eq_zero_iff] at h
      simp only [cells,h.1,List.take_zero,List.drop_zero,ih h.2 a b]

theorem length_cells {fs : List Field} {src : Bytes} (h : readEnd fs ≤ src.length) :
    (cells fs src).length = size fs := by
  induction fs generalizing src with
  | nil => rfl
  | cons f fs ih =>
    cases f with
    | zero n =>
      simp only [cells,size,Field.width,List.length_append,List.length_replicate]
      simp only [readEnd] at h
      by_cases hr : readEnd fs = 0
      · rw [cells_of_readEnd_zero hr _ [],ih (by simp [hr])]
      · simp only [hr,if_false] at h
        rw [ih (by simp only [List.length_drop]; omega)]
    | swap n =>
      simp only [readEnd,Field.width] at h
      simp only [cells,size,Field.width,List.length_append,List.length_reverse,List.length_take]
      rw [ih (by simp only [List.length_drop]; omega)]
      omega
    | copy n =>
      simp only [readEnd,Field.width] at h
      simp only [cells,size,Field.width,List.length_append,List.length_take]
      rw [ih (by simp only [List.length_drop]; omega)]
      omega

theorem cells_append {fs : List Field} {a : Bytes} (b : Bytes) (h : readEnd fs ≤ a.length) :
    cells fs (a ++ b) = cells fs a := by
  induction fs generalizing a with
  | nil => rfl
  | cons f fs ih =>
    cases f with
    | zero n =>
      simp only [readEnd] at h
      by_cases hr : readEnd fs = 0
      · simp only [cells,cells_of_readEnd_zero hr _ (a.drop n)]
      · simp only [hr,if_false] at h
        simp only [cells]
        rw [List.drop_append_of_le_length (by omega),ih (by simp only [List.length_drop]; omega)]
    | swap n =>
      simp only [readEnd,Field.width] at h
      simp only [cells]
      rw [List.drop_append_of_le_length (by omega),List.take_append_of_le_length (by omega),
        ih (by simp only [List.length_drop]; omega)]
    | copy n =>
      simp only [readEnd,Field.width] at h
      simp only [cells]
      rw [List.drop_append_of_le_length (by omega),List.take_append_of_le_length (by omega),
        ih (by simp only [List.length_drop]; omega)]

theorem cells_fields_append (fs gs : List Field) (src : Bytes) :
    cells (fs ++ gs) src = cells fs src ++ cells gs (src.drop (size fs)) := by
  induction fs generalizing src with
  | nil => simp [cells,size]
  | cons f fs ih =>
    cases f <;> simp only [List.cons_append,cells,size,Field.width,ih,List.drop_drop,
      List.append_assoc]

theorem cells_cells {fs : List Field} {src : Bytes} (h : size fs ≤ src.length) :
    cells fs (cells fs src) = blank fs src := by
  induction fs generalizing src with
  | nil => rfl
  | cons f fs ih =>
    have hs : f.width ≤ src.length := by
      simp only [size] at h
      omega
    have hrest : size fs ≤ (src.drop f.width).length := by
      simp only [size] at h
      simp only [List.length_drop]
      omega
    have htail := ih hrest
    cases f with
    | zero n =>
      simp only [cells,blank]
      rw [List.drop_left' (by simp)]
      exact congrArg _ htail
    | swap n =>
      have hl : (src.take n).reverse.length = n := by
        simp only [List.length_reverse,List.length_take]
        exact Nat.min_eq_left hs
      simp only [cells,blank,Field.width]
      rw [List.drop_left' hl,List.take_left' hl,List.reverse_reverse]
      exact congrArg _ htail
    | copy n =>
      have hl : (src.take n).length = n := by
        simp only [List.length_take]
        exact Nat.min_eq_left hs
      simp only [cells,blank,Field.width]
      rw [List.drop_left' hl,List.take_left' hl]
      exact congrArg _ htail

theorem length_blank {fs : List Field} {src : Bytes} (h : size fs ≤ src.length) :
    (blank fs src).length = size fs := by
  rw [← cells_cells h]
  have hc : (cells fs src).length = size fs := length_cells (le_trans (readEnd_le_size fs) h)
  exact length_cells (by rw [hc]; exact readEnd_le_size fs)

theorem size_append (fs gs : List Field) : size (fs ++ gs) = size fs + size gs := by
  induction fs with
  | nil => exact (Nat.zero_add _).symm
  | cons f fs ih => rw [List.cons_append,size,size,ih,Nat.add_assoc]

theorem blank_append (fs gs : List Field) (src : Bytes) :
    blank (fs ++ gs) src = blank fs src ++ blank gs (src.drop (size fs)) := by
  induction fs generalizing src with
  | nil => rfl
  | cons f fs ih =>
    cases f <;> simp only [List.cons_append,blank,size,Field.width,ih,List.drop_drop,List.append_assoc]

theorem blank_front {fs : List Field} {a : Bytes} (b : Bytes) (h : size fs ≤ a.length) :
    blank fs (a ++ b) = blank fs a := by
  induction fs generalizing a with
  | nil => rfl
  | cons f fs ih =>
    have hf : f.width ≤ a.length := Nat.le_of_add_right_le h
    have hrest : size fs ≤ (a.drop f.width).length := by
      rw [List.length_drop]
      exact Nat.le_sub_of_add_le' h
    cases f with
    | zero n =>
      have hn : n ≤ a.length := hf
      simp only [blank]
      rw [List.drop_append_of_le_length hn]
      exact congrArg _ (ih hrest)
    | swap n =>
      simp only [blank]
      rw [List.drop_append_of_le_length hf,List.take_append_of_le_length hf]
      exact congrArg _ (ih hrest)
    | copy n =>
      simp only [blank]
      rw [List.drop_append_of_le_length hf,List.take_append_of_le_length hf]
      exact congrArg _ (ih hrest)

theorem blank_blank {fs : List Field} {src : Bytes} (h : size fs ≤ src.length) :
    blank fs (blank fs src) = blank fs src := by
  induction fs generalizing src with
  | nil => rfl
  | cons f fs ih =>
    have hf : f.width ≤ src.length := Nat.le_of_add_right_le h
    have hrest : size fs ≤ (src.drop f.width).length := by
      rw [List.length_drop]
      exact Nat.le_sub_of_add_le' h
    cases f with
    | zero n =>
      simp only [blank]
      rw [List.drop_left' List.length_replicate]
      exact congrArg _ (ih hrest)
    | swap n =>
      have hn : (src.take n).length = n := List.length_take_of_le hf
      simp only [blank,Field.width]
      rw [List.drop_left' hn,List.take_left' hn]
      exact congrArg _ (ih hrest)
    | copy n =>
      have hn : (src.take n).length = n := List.length_take_of_le hf
      simp only [blank,Field.width]
      rw [List.drop_left' hn,List.take_left' hn]
      exact congrArg _ (ih hrest)

theorem slice_cells {fs : List Field} {src : Bytes} {off : Nat} {f : Field}
    (hf : fieldAt fs off = some f) (h : readEnd fs ≤ src.length) :
    slice (cells fs src) off f.width = f.image src off := by
  induction fs generalizing src off with
  | nil => simp [fieldAt] at hf
  | cons g fs ih =>
    cases off with
    | zero =>
      simp only [fieldAt,Option.some.injEq] at hf
      subst hf
      cases g with
      | zero n => simp [cells,slice,Field.width,Field.image]
      | swap n =>
        simp only [readEnd,Field.width] at h
        simp only [cells,slice,Field.width,Field.image,List.drop_zero]
        exact List.take_left' (by simp; omega)
      | copy n =>
        simp only [readEnd,Field.width] at h
        simp only [cells,slice,Field.width,Field.image,List.drop_zero]
        exact List.take_left' (by simp; omega)
    | succ off =>
      simp only [fieldAt] at hf
      split at hf
      · rename_i hw
        have key : f.image (src.drop g.width) (off + 1 - g.width) = f.image src (off + 1) := by
          have hoff : g.width + (off + 1 - g.width) = off + 1 := by omega
          cases f <;> simp [Field.image,slice_drop,hoff]
        have hread : readEnd fs ≤ (src.drop g.width).length := by
          simp only [List.length_drop]
          cases g with
          | zero n =>
            simp only [readEnd] at h
            by_cases hr : readEnd fs = 0
            · omega
            · simp only [hr,if_false] at h
              simp only [Field.width]
              omega
          | swap n =>
            simp only [readEnd,Field.width] at h
            simp only [Field.width]
            omega
          | copy n =>
            simp only [readEnd,Field.width] at h
            simp only [Field.width]
            omega
        have hrest := ih hf hread
        rw [key] at hrest
        have hhead : ∃ pre, cells (g :: fs) src = pre ++ cells fs (src.drop g.width) ∧
            pre.length = g.width := by
          cases g with
          | zero n => exact ⟨_,rfl,by simp [Field.width]⟩
          | swap n =>
            simp only [readEnd,Field.width] at h
            exact ⟨_,rfl,by simp [Field.width]; omega⟩
          | copy n =>
            simp only [readEnd,Field.width] at h
            exact ⟨_,rfl,by simp [Field.width]; omega⟩
        obtain ⟨pre,hpre,hlen⟩ := hhead
        rw [hpre,slice_append_right _ (by omega),hlen]
        exact hrest
      · simp at hf

variable {fs : List Field} {src : Bytes} {off : Nat}

theorem host16_cells (hf : fieldAt fs off = some (.swap 2)) (h : readEnd fs ≤ src.length) :
    host16 (cells fs src) off = be16 src off := by
  have hs := slice_cells hf h
  simp only [Field.width,Field.image] at hs
  rw [host16,hs,be16,beNat]

theorem hostByte_cells (hf : fieldAt fs off = some (.copy 1)) (h : readEnd fs ≤ src.length) :
    hostByte (cells fs src) off = hostByte src off := by
  have hs := slice_cells hf h
  simp only [Field.width,Field.image] at hs
  rw [hostByte,hs,hostByte]

theorem convert_eq_ok {ε : Type} {m : Bytes} {p : Nat} {b : Bytes} :
    (convert fs m p : Run ε Bytes) = .ok b ↔
      p + readEnd fs ≤ m.length ∧ b = cells fs (m.drop p) := within_eq_ok

theorem convert_inside {ε : Type} {m : Bytes} {p : Nat} (h : p + readEnd fs ≤ m.length) :
    (convert fs m p : Run ε Bytes) = .ok (cells fs (m.drop p)) := if_pos h

theorem convert_eq_error {ε : Type} {m : Bytes} {p : Nat} {e : Stop ε} :
    (convert fs m p : Run ε Bytes) = .error e ↔
      m.length < p + readEnd fs ∧ e = .outOfBounds := within_eq_error

end Layout

end Trema.Library
