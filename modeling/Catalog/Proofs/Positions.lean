import Catalog.Source.Text
import Mathlib.Data.List.Basic

/-!
Offsets and lines of a text. A text is told apart as what stands above a line, the line itself and
what stands below, and an offset as the number of bytes of what stands before it.
-/
namespace Catalog.Source

/-! Offsets. -/

@[simp] theorem byteCount_append (p q : List Char) :
    byteCount (p ++ q) = byteCount p + byteCount q := by
  induction p with
  | nil => simp [byteCount]
  | cons c p ih => simp [byteCount, ih, Nat.add_assoc]

theorem length_le_byteCount (cs : List Char) : cs.length ≤ byteCount cs := by
  induction cs with
  | nil => exact Nat.le_refl 0
  | cons c cs ih =>
    have hc := c.utf8Size_pos
    simp only [List.length_cons, byteCount]
    omega

/-- A text has as many bytes as characters only where every character is one byte. -/
theorem byteCount_eq_length_iff (cs : List Char) :
    byteCount cs = cs.length ↔ ∀ c ∈ cs, c.utf8Size = 1 := by
  induction cs with
  | nil => simp [byteCount]
  | cons c cs ih =>
    have hc := c.utf8Size_pos
    have hcs := length_le_byteCount cs
    simp only [byteCount, List.length_cons, List.forall_mem_cons, ← ih]
    omega

theorem before_append (p q : List Char) (n : Nat) :
    before (p ++ q) (byteCount p + n) = p ++ before q n := by
  induction p with
  | nil => simp [byteCount]
  | cons c p ih =>
    have hc := c.utf8Size_pos
    have hne : byteCount (c :: p) + n ≠ 0 := by simp only [byteCount]; omega
    have hsub : byteCount (c :: p) + n - c.utf8Size = byteCount p + n := by
      simp only [byteCount]; omega
    rw [List.cons_append, before, if_neg hne, hsub, ih, List.cons_append]

theorem before_byteCount (p q : List Char) : before (p ++ q) (byteCount p) = p := by
  simpa using before_append p q 0

theorem prefix_before (cs : List Char) (n : Nat) : before cs n <+: cs := by
  induction cs generalizing n with
  | nil => exact List.prefix_rfl
  | cons c cs ih =>
    unfold before
    split
    · exact List.nil_prefix
    · exact (List.prefix_cons_inj c).mpr (ih _)

theorem prefix_before_append (p q : List Char) (n : Nat) : before p n <+: before (p ++ q) n := by
  induction p generalizing n with
  | nil => exact List.nil_prefix
  | cons c p ih =>
    rw [List.cons_append, before, before]
    split
    · exact List.prefix_rfl
    · exact (List.prefix_cons_inj c).mpr (ih _)

/-- No two characters begin at one offset. -/
theorem length_before_le (cs : List Char) (n : Nat) : (before cs n).length ≤ n := by
  induction cs generalizing n with
  | nil => exact Nat.zero_le n
  | cons c cs ih =>
    have hc := c.utf8Size_pos
    have hrest := ih (n - c.utf8Size)
    unfold before
    split
    · exact Nat.zero_le n
    · rw [List.length_cons]
      omega

/-- What begins before an offset reaches at least as far, unless the text ends before. -/
theorem le_byteCount_before (cs : List Char) (n : Nat) :
    min n (byteCount cs) ≤ byteCount (before cs n) := by
  induction cs generalizing n with
  | nil => exact Nat.min_le_right n _
  | cons c cs ih =>
    unfold before
    split
    · omega
    · have hrest := ih (n - c.utf8Size)
      simp only [byteCount]
      omega

theorem before_of_le {cs : List Char} {n : Nat} (hn : byteCount cs ≤ n) : before cs n = cs := by
  obtain ⟨k, rfl⟩ := Nat.exists_eq_add_of_le hn
  simpa [before] using before_append cs [] k

theorem byteCount_mono {p q : List Char} (h : p <+: q) : byteCount p ≤ byteCount q := by
  obtain ⟨r, rfl⟩ := h
  simp

/-- No character begins before the offset and ends after it. Past the end there is none. -/
def OnBoundary (cs : List Char) (offset : Nat) : Prop :=
  byteCount (before cs offset) ≤ offset

instance (cs : List Char) (offset : Nat) : Decidable (OnBoundary cs offset) :=
  inferInstanceAs (Decidable (_ ≤ _))

theorem OnBoundary.byteCount_before {cs : List Char} {n : Nat} (h : OnBoundary cs n) :
    byteCount (before cs n) = min n (byteCount cs) :=
  Nat.le_antisymm (Nat.le_min.mpr ⟨h, byteCount_mono (prefix_before cs n)⟩)
    (le_byteCount_before cs n)

/-- A boundary of a text is a boundary of each part of it. -/
theorem OnBoundary.part {above cs below : List Char} {n : Nat}
    (h : OnBoundary (above ++ (cs ++ below)) (byteCount above + n)) : OnBoundary cs n := by
  have hwhole : byteCount above + byteCount (before (cs ++ below) n) ≤ byteCount above + n := by
    simpa only [OnBoundary, before_append, byteCount_append] using h
  exact Nat.le_trans (byteCount_mono (prefix_before_append cs below n))
    (Nat.le_of_add_le_add_left hwhole)

/-! Characters with their offsets. -/

/-- The characters of a text that begins at `offset`, each with its own offset. -/
def indexed (offset : Nat) : List Char → List (Nat × Char)
  | [] => []
  | c :: cs => (offset, c) :: indexed (offset + c.utf8Size) cs

theorem indexed_append (offset : Nat) (p q : List Char) :
    indexed offset (p ++ q) = indexed offset p ++ indexed (offset + byteCount p) q := by
  induction p generalizing offset with
  | nil => rfl
  | cons c p ih => simp [indexed, byteCount, ih, Nat.add_assoc]

theorem bounds_of_mem_indexed {offset : Nat} {cs : List Char} {x : Nat × Char}
    (hx : x ∈ indexed offset cs) : offset ≤ x.1 ∧ x.1 < offset + byteCount cs := by
  induction cs generalizing offset with
  | nil => cases hx
  | cons c cs ih =>
    have hc := c.utf8Size_pos
    rcases List.mem_cons.mp hx with rfl | hx
    · simp only [byteCount]
      omega
    · have hrest := ih hx
      simp only [byteCount]
      omega

theorem filter_indexed_lt (offset stop : Nat) (cs : List Char) :
    ((indexed offset cs).filter (·.1 < stop)).map (·.2) = before cs (stop - offset) := by
  induction cs generalizing offset with
  | nil => rfl
  | cons c cs ih =>
    have hrest := ih (offset + c.utf8Size)
    rw [← Nat.sub_sub] at hrest
    rw [indexed, before, List.filter_cons]
    by_cases hlt : offset < stop
    · rw [if_pos (decide_eq_true hlt), if_neg (by omega), List.map_cons, hrest]
    · have hzero : stop - offset = 0 := by omega
      rw [if_neg (by simpa using hlt), if_pos hzero, hrest, hzero, Nat.zero_sub, before_zero]

/-! Lines. -/

theorem pieces_eq_splitOn (cs : List Char) : pieces cs = cs.splitOn '\n' := by
  induction cs with
  | nil => rfl
  | cons c cs ih =>
    rw [List.splitOn_cons_eq_if_modifyHead, ← ih, pieces]
    simp only [beq_iff_eq]
    split
    · rfl
    · cases hpieces : pieces cs with
      | nil => exact absurd hpieces (pieces_ne_nil cs)
      | cons p ps => rfl

theorem pieces_cut {a : List Char} (ha : '\n' ∉ a) (b : List Char) :
    pieces (a ++ '\n' :: b) = a :: pieces b := by
  rw [pieces_eq_splitOn, List.splitOn_append_cons_self_of_not_mem ha, ← pieces_eq_splitOn]

theorem pieces_whole {a : List Char} (ha : '\n' ∉ a) : pieces a = [a] := by
  rw [pieces_eq_splitOn, List.splitOn_eq_singleton ha]

theorem lines_cut {a : List Char} (ha : '\n' ∉ a) (b : List Char) :
    lines (a ++ '\n' :: b) = dropReturn a :: lines b := by
  have hne := pieces_ne_nil b
  simp only [lines, pieces_cut ha, List.getLast?_cons_of_ne_nil hne,
    List.dropLast_cons_of_ne_nil hne, List.map_cons]
  split <;> simp

theorem lines_whole {a : List Char} (ha : '\n' ∉ a) : lines a = if a = [] then [] else [a] := by
  cases a <;> simp [lines, pieces_whole ha]

theorem prefix_dropReturn (line : List Char) : dropReturn line <+: line := by
  unfold dropReturn
  split
  · exact List.dropLast_prefix line
  · exact List.prefix_rfl

/-- A text told apart around one of its lines, which is the one that `lines` yields there. -/
structure LineAt (cs above line below : List Char) : Prop where
  text : cs = above ++ (line ++ below)
  starts : above = [] ∨ above.getLast? = some '\n'
  yielded : (lines cs)[above.count '\n']? = some line

/-- Every line that is yielded has its place in the text. -/
theorem exists_lineAt (cs : List Char) {k : Nat} {line : List Char}
    (hline : (lines cs)[k]? = some line) :
    '\n' ∉ line ∧ ∃ above below, LineAt cs above line below ∧ above.count '\n' = k := by
  by_cases hbreak : '\n' ∈ cs
  · -- The text goes on after its first break: the line is the first one or one of the rest.
    obtain ⟨a, b, rfl, ha⟩ := List.eq_append_cons_of_mem hbreak
    have hcut := lines_cut ha b
    cases k with
    | zero =>
      obtain rfl : dropReturn a = line := by simpa [hcut] using hline
      obtain ⟨r, hr⟩ := prefix_dropReturn a
      refine ⟨fun hmem => ha ((prefix_dropReturn a).mem hmem), [], r ++ '\n' :: b, ?_, rfl⟩
      exact ⟨by rw [List.nil_append, ← List.append_assoc, hr], .inl rfl, hline⟩
    | succ k =>
      rw [hcut, List.getElem?_cons_succ] at hline
      obtain ⟨hfree, above, below, hat, hcount⟩ := exists_lineAt b hline
      have hcount' : (a ++ '\n' :: above).count '\n' = k + 1 := by
        simp [List.count_append, List.count_eq_zero_of_not_mem ha, hcount]
      refine ⟨hfree, a ++ '\n' :: above, below, ⟨?_, ?_, ?_⟩, hcount'⟩
      · rw [hat.text]
        simp
      · rcases hat.starts with rfl | hlast
        · exact .inr (by simp)
        · exact .inr (by simp [List.getLast?_append, List.getLast?_cons, hlast])
      · rw [hcount', hcut, List.getElem?_cons_succ, hline]
  · rw [lines_whole hbreak] at hline
    split at hline
    · cases hline
    · obtain ⟨rfl, rfl⟩ : k = 0 ∧ cs = line := by
        cases k with
        | zero => simpa using hline
        | succ k => cases hline
      exact ⟨hbreak, [], [], ⟨by simp, .inl rfl, by simp [lines_whole hbreak, *]⟩, rfl⟩
termination_by cs.length

namespace LineAt

variable {cs above line below : List Char} (h : LineAt cs above line below)
include h

theorem newline_notMem : '\n' ∉ line :=
  (exists_lineAt cs h.yielded).1

end LineAt

/-- The characters of the line read so far make the column. -/
theorem positionAfter_append {above left : List Char}
    (hstarts : above = [] ∨ above.getLast? = some '\n') (hleft : '\n' ∉ left) :
    positionAfter (above ++ left) = (above.count '\n' + 1, left.length + 1) := by
  have hlast : lastLine (above ++ left) = left := by
    have hfree : ∀ c ∈ left.reverse, (c != '\n') = true := by
      intro c hc
      simpa using fun heq : c = '\n' => hleft (heq ▸ List.mem_reverse.mp hc)
    have hend : above.reverse.takeWhile (· != '\n') = [] := by
      rcases hstarts with rfl | hlast
      · rfl
      · rw [← List.head?_reverse] at hlast
        obtain ⟨rest, hrest⟩ := List.head?_eq_some_iff.mp hlast
        rw [hrest]
        rfl
    rw [lastLine, List.reverse_append, List.takeWhile_append_of_pos hfree, hend, List.append_nil,
      List.reverse_reverse]
  rw [positionAfter, hlast, List.count_append, List.count_eq_zero_of_not_mem hleft, Nat.add_zero]

end Catalog.Source
