import Catalog.Proofs.Positions
import Catalog.Source.Span
import Mathlib.Data.List.Basic

/-!
What the excerpt of a span shows. The caret comes from a count of characters, the gutter above it
from a number set in a width and the tail from a count of bytes: they agree where the number fits
its width and the bytes are characters.
-/
namespace Catalog

/-! Rows. -/

theorem newline_notMem_repr (n : Nat) : '\n' ∉ n.repr.toList := by
  intro hmem
  rw [Nat.toList_repr] at hmem
  have hdigit := Nat.isDigit_of_mem_toDigits (by decide) (by decide) hmem
  cases hdigit

namespace Excerpt

/-- What stands before the text in its row. -/
def gutter (e : Excerpt) : List Char :=
  gutterNumber e.line ++ ['|', ' ']

theorem render_eq (e : Excerpt) : e.render =
    [' ', ' ', ' ', '|'] ++ '\n' :: (e.textRow ++ '\n' :: (e.markRow ++ ['\n'])) := by
  have hrule : "   |\n".toList = [' ', ' ', ' ', '|', '\n'] := by simp
  unfold render
  rw [hrule]
  simp

theorem newline_notMem_gutter (e : Excerpt) : '\n' ∉ e.gutter := by
  simp [gutter, gutterNumber, newline_notMem_repr, -Nat.toList_repr]

theorem newline_notMem_markRow (e : Excerpt) : '\n' ∉ e.markRow := by
  simp [markRow]

/-- The width of three digits is kept by the numbers that fit it. -/
theorem length_gutter_eq_iff (e : Excerpt) : e.gutter.length = 5 ↔ e.line < 1000 := by
  have hdigits : e.line.repr.toList.length ≤ 3 ↔ e.line < 1000 := by
    rw [Nat.toList_repr]
    exact Nat.length_toDigits_le_iff (by decide) (by decide)
  rw [← hdigits]
  simp only [gutter, gutterNumber, List.length_append, List.length_replicate, List.length_cons,
    List.length_nil]
  omega

/-- There is one caret, and it stands after the gutter and the columns. -/
theorem markRow_getElem?_eq_caret_iff (e : Excerpt) (i : Nat) :
    e.markRow[i]? = some '^' ↔ i = e.column + 4 := by
  have hlength : ([' ', ' ', ' ', '|'] ++ List.replicate e.column ' ').length = e.column + 4 := by
    simp
  rw [markRow]
  rcases Nat.lt_trichotomy i (e.column + 4) with hlt | rfl | hgt
  · rw [List.getElem?_append_left (hlength ▸ hlt)]
    refine ⟨fun hcaret => ?_, fun heq => absurd heq (Nat.ne_of_lt hlt)⟩
    simpa using List.mem_of_getElem? hcaret
  · simp
  · obtain ⟨k, rfl⟩ := Nat.exists_eq_add_of_lt hgt
    have hk : e.column + 4 + k + 1 - (e.column + 4) = k + 1 := by omega
    rw [List.getElem?_append_right (by omega), hlength, hk, List.getElem?_cons_succ]
    refine ⟨fun hcaret => ?_, fun heq => by omega⟩
    simpa using List.mem_of_getElem? hcaret

def isMark (c : Char) : Bool :=
  c = '^' ∨ c = '~'

theorem countP_isMark_markRow (e : Excerpt) (hmarks : 0 < e.marks) :
    e.markRow.countP isMark = e.marks := by
  have hblank : isMark ' ' = false := rfl
  have htail : isMark '~' = true := rfl
  have hgutter : [' ', ' ', ' ', '|'].countP isMark = 0 := rfl
  have hcaret : isMark '^' = true := rfl
  simp only [markRow, List.countP_append, List.countP_replicate, List.countP_cons, hgutter, hblank,
    htail, hcaret]
  simp
  omega

end Excerpt

namespace Span

/-- The rows of what is shown of a span. -/
def rows (s : Span) (source : String) : List (List Char) :=
  Source.pieces (s.snippet source).toList

theorem location_eq (s : Span) (source : String) :
    ∃ head, '\n' ∉ head ∧ (s.location source).toList = head ++ ['\n'] := by
  rcases hposition : Source.position source s.start.toNat with ⟨line, column⟩
  refine ⟨"  --> line ".toList ++ line.repr.toList ++ ':' :: column.repr.toList, ?_, ?_⟩
  · simp [newline_notMem_repr, -Nat.toList_repr]
  · simp [location, hposition, toString, -Nat.toList_repr]

theorem snippet_of_excerpt {s : Span} {source : String} {e : Excerpt}
    (he : s.excerpt? source = some e) :
    s.snippet source = s.location source ++ String.ofList e.render := by
  rw [snippet, he]

theorem rows_eq {s : Span} {source : String} {e : Excerpt} (he : s.excerpt? source = some e)
    (htext : '\n' ∉ e.text) :
    ∃ head, s.rows source = [head, [' ', ' ', ' ', '|'], e.textRow, e.markRow, []] := by
  obtain ⟨head, hhead, hlocation⟩ := s.location_eq source
  refine ⟨head, ?_⟩
  have hshown : (s.snippet source).toList = head ++ '\n' :: ([' ', ' ', ' ', '|'] ++
      '\n' :: (e.textRow ++ '\n' :: (e.markRow ++ ['\n']))) := by
    simp only [snippet_of_excerpt he, e.render_eq, String.toList_append, String.toList_ofList,
      hlocation, List.append_assoc, List.cons_append, List.nil_append]
  have hrow : '\n' ∉ e.textRow := by
    simpa [Excerpt.textRow, Excerpt.gutter] using And.intro e.newline_notMem_gutter htext
  have hrule : '\n' ∉ [' ', ' ', ' ', '|'] := by simp
  rw [rows, hshown, Source.pieces_cut hhead, Source.pieces_cut hrule, Source.pieces_cut hrow,
    Source.pieces_cut e.newline_notMem_markRow, Source.pieces]

/-! The caret. -/

section At

variable {s : Span} {source : String} {above left right below : List Char}

/-- A span that starts between two characters of a line, or at one of its ends. -/
structure StartsAt (s : Span) (source : String) (above left right below : List Char) : Prop where
  line : Source.LineAt source.toList above (left ++ right) below
  start : s.start.toNat = Source.byteCount (above ++ left)

/-- The characters before the span in its line make the column, those after its start the room. -/
theorem StartsAt.excerpt? (h : s.StartsAt source above left right below) :
    ∃ e, s.excerpt? source = some e ∧ e.line = above.count '\n' + 1 ∧
      e.column = left.length + 1 ∧ e.text = left ++ right ∧
      e.marks = min (max s.length 1) (max right.length 1) := by
  have htext : source.toList = (above ++ left) ++ (right ++ below) := by simp [h.line.text]
  have hleft : '\n' ∉ left :=
    fun hmem => h.line.newline_notMem (List.mem_append_left right hmem)
  have hposition : Source.position source s.start.toNat =
      (above.count '\n' + 1, left.length + 1) := by
    rw [Source.position, h.start, htext, Source.before_byteCount,
      Source.positionAfter_append h.line.starts hleft]
  have hroom : (left ++ right).length + 1 - (left.length + 1) = right.length := by
    simp only [List.length_append]
    omega
  refine ⟨⟨above.count '\n' + 1, left.length + 1, left ++ right,
    min (max s.length 1) (max right.length 1)⟩, ?_, rfl, rfl, rfl, rfl⟩
  simp only [Span.excerpt?, hposition, Nat.add_sub_cancel, h.line.yielded, Option.map_some, hroom]

/-- The third row shows the line, and the caret of the fourth one stands at the place where `right`
begins in it. -/
def PointsAt (s : Span) (source : String) (left right : List Char) : Prop :=
  ∃ gutter under, (s.rows source)[2]? = some (gutter ++ (left ++ right)) ∧
    (s.rows source)[3]? = some under ∧ under[(gutter ++ left).length]? = some '^'

theorem pointsAt_iff_of_excerpt {e : Excerpt} (he : s.excerpt? source = some e)
    (htext : e.text = left ++ right) (hfree : '\n' ∉ e.text) :
    s.PointsAt source left right ↔ e.gutter.length + left.length = e.column + 4 := by
  obtain ⟨head, hrows⟩ := rows_eq he hfree
  rw [← e.markRow_getElem?_eq_caret_iff, ← List.length_append]
  constructor
  · rintro ⟨gutter, under, hsource, hunder, hcaret⟩
    obtain rfl : e.markRow = under := by simpa [hrows] using hunder
    have hsame : e.gutter ++ (left ++ right) = gutter ++ (left ++ right) := by
      simpa [hrows, Excerpt.textRow, Excerpt.gutter, htext] using hsource
    rwa [List.append_cancel_right hsame]
  · intro hcaret
    refine ⟨e.gutter, e.markRow, ?_, by rw [hrows]; rfl, hcaret⟩
    simp [hrows, Excerpt.textRow, Excerpt.gutter, htext]

/-- The caret stands below the start of the span on the lines whose number has at most three
digits. -/
theorem pointsAt_iff (h : s.StartsAt source above left right below) :
    s.PointsAt source left right ↔ above.count '\n' + 1 < 1000 := by
  obtain ⟨e, he, hline, hcolumn, htext, -⟩ := h.excerpt?
  rw [pointsAt_iff_of_excerpt he htext (htext ▸ h.line.newline_notMem), hcolumn, ← hline,
    ← e.length_gutter_eq_iff]
  omega

end At

end Span

/-- A line of one character after `n` empty ones. -/
def Source.afterEmpty (n : Nat) : String :=
  String.ofList (List.replicate n '\n' ++ ['x'])

theorem Source.byteCount_replicate (n : Nat) : byteCount (List.replicate n '\n') = n := by
  have hplain : ∀ c ∈ List.replicate n '\n', c.utf8Size = 1 := by
    intro c hc
    rw [List.eq_of_mem_replicate hc]
    rfl
  rw [(byteCount_eq_length_iff _).mpr hplain, List.length_replicate]

theorem Source.lineAt_afterEmpty (n : Nat) :
    LineAt (afterEmpty n).toList (List.replicate n '\n') ['x'] [] := by
  rw [afterEmpty, String.toList_ofList]
  refine ⟨by rw [List.append_nil], ?_, ?_⟩
  · cases n with
    | zero => exact .inl rfl
    | succ n => exact .inr (by simp [List.getLast?_replicate])
  · rw [List.count_replicate_self]
    induction n with
    | zero => rfl
    | succ n ih =>
      rw [List.replicate_succ, List.cons_append]
      exact (lines_cut (a := []) (by simp) _) ▸ ih

theorem Span.startsAt_afterEmpty {n : Nat} {s : Span} (hs : s.start.toNat = n) :
    s.StartsAt (Source.afterEmpty n) (List.replicate n '\n') [] ['x'] [] :=
  ⟨Source.lineAt_afterEmpty n, by rw [List.append_nil, Source.byteCount_replicate, hs]⟩

/-- On line 999 the caret is still in its place. -/
theorem Span.pointsAt_afterEmpty :
    (⟨998, 999⟩ : Span).StartsAt (Source.afterEmpty 998) (List.replicate 998 '\n') [] ['x'] [] ∧
      (⟨998, 999⟩ : Span).PointsAt (Source.afterEmpty 998) [] ['x'] := by
  have hstarts := startsAt_afterEmpty (n := 998) (s := ⟨998, 999⟩) rfl
  refine ⟨hstarts, (pointsAt_iff hstarts).mpr ?_⟩
  rw [List.count_replicate_self]
  decide

/-- The number of the line takes four digits, and the caret stays behind. -/
theorem Span.not_pointsAt_afterEmpty :
    (⟨999, 1000⟩ : Span).StartsAt (Source.afterEmpty 999) (List.replicate 999 '\n') [] ['x'] [] ∧
    ((⟨999, 1000⟩ : Span).rows (Source.afterEmpty 999))[2]? =
      some ['1', '0', '0', '0', '|', ' ', 'x'] ∧
    ((⟨999, 1000⟩ : Span).rows (Source.afterEmpty 999))[3]? =
      some [' ', ' ', ' ', '|', ' ', '^'] ∧
    ¬ (⟨999, 1000⟩ : Span).PointsAt (Source.afterEmpty 999) [] ['x'] := by
  have hstarts := startsAt_afterEmpty (n := 999) (s := ⟨999, 1000⟩) rfl
  obtain ⟨⟨line, column, text, marks⟩, he, hline, hcolumn, htext, hmarks⟩ := hstarts.excerpt?
  rw [List.count_replicate_self] at hline
  cases hline
  cases hcolumn
  cases htext
  cases hmarks
  obtain ⟨head, hrows⟩ := rows_eq he (by simp)
  refine ⟨hstarts, ?_, ?_, ?_⟩
  · rw [hrows]
    rfl
  · rw [hrows]
    rfl
  · rw [pointsAt_iff_of_excerpt he rfl (by simp)]
    decide

namespace Span

/-! The marks. -/

section At

variable {s : Span} {source : String} {above left right below : List Char}

/-- The characters of a line that begin inside the span, the line itself beginning at `offset`. -/
def covered (s : Span) (offset : Nat) (line : List Char) : List (Nat × Char) :=
  (Source.indexed offset line).filter fun x => s.start.toNat ≤ x.1 ∧ x.1 < s.stop.toNat

/-- The number of marks in the fourth row. -/
def marks? (s : Span) (source : String) : Option Nat :=
  (s.rows source)[3]?.map (·.countP Excerpt.isMark)

theorem StartsAt.marks? (h : s.StartsAt source above left right below) :
    s.marks? source = some (min (max s.length 1) (max right.length 1)) := by
  obtain ⟨e, he, -, -, htext, hmarks⟩ := h.excerpt?
  obtain ⟨head, hrows⟩ := rows_eq he (htext ▸ h.line.newline_notMem)
  have hpos : 0 < e.marks := by omega
  simp [Span.marks?, hrows, e.countP_isMark_markRow hpos, hmarks]

/-- What stands before the start is not covered, and the rest is as far as the span is long. -/
theorem StartsAt.covered (h : s.StartsAt source above left right below) :
    (s.covered (Source.byteCount above) (left ++ right)).map (·.2) =
      Source.before right s.length := by
  have hoffset : Source.byteCount above + Source.byteCount left = s.start.toNat := by
    rw [h.start, Source.byteCount_append]
  have hleft : (Source.indexed (Source.byteCount above) left).filter
      (fun x => s.start.toNat ≤ x.1 ∧ x.1 < s.stop.toNat) = [] := by
    refine List.filter_eq_nil_iff.mpr fun x hx => ?_
    have hbounds := Source.bounds_of_mem_indexed hx
    simp only [decide_eq_true_eq]
    omega
  have hright : (Source.indexed s.start.toNat right).filter
      (fun x => s.start.toNat ≤ x.1 ∧ x.1 < s.stop.toNat) =
        (Source.indexed s.start.toNat right).filter (·.1 < s.stop.toNat) := by
    refine List.filter_congr fun x hx => ?_
    have hbounds := Source.bounds_of_mem_indexed hx
    simp [hbounds.1]
  rw [Span.covered, Source.indexed_append, hoffset, List.filter_append, hleft, hright,
    List.nil_append, Source.filter_indexed_lt, length]

/-- There are as many marks as characters of the line that begin inside the span, or one where
there are none. -/
def Underlines (s : Span) (source : String) (offset : Nat) (line : List Char) : Prop :=
  s.marks? source = some (max 1 (s.covered offset line).length)

/-- Bytes are as many as characters where the text ends before the offset or all characters before
it are one byte. -/
theorem marks_eq_iff_of_onBoundary {n : Nat} (hn : Source.OnBoundary right n) :
    min (max n 1) (max right.length 1) = max 1 (Source.before right n).length ↔
      Source.byteCount right ≤ n ∨ ∀ c ∈ Source.before right n, c.utf8Size = 1 := by
  rw [← Source.byteCount_eq_length_iff]
  rcases Nat.lt_or_ge n (Source.byteCount right) with hlt | hge
  · -- Something of the text is left, and what comes before it takes just `n` bytes.
    have hbytes : Source.byteCount (Source.before right n) = n := by
      rw [hn.byteCount_before, Nat.min_eq_left (Nat.le_of_lt hlt)]
    have hfits := Source.length_before_le right n
    have hempty : (Source.before right n).length = 0 → n = 0 := by
      intro hnil
      rw [← hbytes, List.eq_nil_of_length_eq_zero hnil]
      rfl
    have hshort : (Source.before right n).length < right.length := by
      refine Nat.lt_of_le_of_ne (Source.prefix_before right n).length_le fun hlength => ?_
      rw [(Source.prefix_before right n).eq_of_length hlength] at hbytes
      omega
    omega
  · have hfits := Source.length_le_byteCount right
    rw [Source.before_of_le hge]
    omega

theorem le_marks (right : List Char) (n : Nat) :
    max 1 (Source.before right n).length ≤ min (max n 1) (max right.length 1) := by
  have hline := (Source.prefix_before right n).length_le
  have hspan := Source.length_before_le right n
  omega

/-- The bytes of what begins inside the span are marked as if they were characters, up to the end
of the line. -/
theorem underlines_iff (h : s.StartsAt source above left right below)
    (hstop : Source.OnBoundary source.toList s.stop.toNat) :
    (s.Underlines source (Source.byteCount above) (left ++ right) ↔
      Source.byteCount (above ++ (left ++ right)) ≤ s.stop.toNat ∨
        ∀ x ∈ s.covered (Source.byteCount above) (left ++ right), x.2.utf8Size = 1) ∧
    ∃ n, s.marks? source = some n ∧
      max 1 (s.covered (Source.byteCount above) (left ++ right)).length ≤ n ∧
      n ≤ max 1 right.length := by
  have hmarks := h.marks?
  have hcovered := h.covered
  have hcount : (s.covered (Source.byteCount above) (left ++ right)).length =
      (Source.before right s.length).length := by
    rw [← hcovered, List.length_map]
  have hplain : (∀ x ∈ s.covered (Source.byteCount above) (left ++ right), x.2.utf8Size = 1) ↔
      ∀ c ∈ Source.before right s.length, c.utf8Size = 1 := by
    rw [← hcovered, List.forall_mem_map]
  refine ⟨?_, _, hmarks, hcount ▸ le_marks right s.length, by omega⟩
  rw [Underlines, hmarks, Option.some.injEq, hcount, hplain]
  rcases Nat.lt_or_ge s.stop.toNat s.start.toNat with hreversed | hle
  · have hlength : s.length = 0 := Nat.sub_eq_zero_of_le (Nat.le_of_lt hreversed)
    simp only [hlength, Source.before_zero, List.length_nil, List.not_mem_nil, false_implies,
      implies_true, or_true, iff_true]
    omega
  · have hsum : s.stop.toNat = Source.byteCount (above ++ left) + s.length := by
      rw [← h.start, length]
      omega
    have hboundary : Source.OnBoundary right s.length := by
      rw [h.line.text, hsum, List.append_assoc, ← List.append_assoc] at hstop
      exact hstop.part
    rw [marks_eq_iff_of_onBoundary hboundary, hsum, ← List.append_assoc,
      Source.byteCount_append _ right, Nat.add_le_add_iff_left]

end At

end Span

/-- A character of two bytes and one of a single byte. -/
def Source.accented : String :=
  String.ofList ['é', 'a']

theorem Span.startsAt_accented (stop : UInt64) :
    (⟨0, stop⟩ : Span).StartsAt Source.accented [] [] ['é', 'a'] [] := by
  refine ⟨?_, rfl⟩
  rw [Source.accented, String.toList_ofList]
  exact ⟨rfl, .inl rfl, rfl⟩

/-- A span of the whole line is underlined as it is. -/
theorem Span.underlines_accented :
    (⟨0, 3⟩ : Span).StartsAt Source.accented [] [] ['é', 'a'] [] ∧
      Source.OnBoundary Source.accented.toList (⟨0, 3⟩ : Span).stop.toNat ∧
      (⟨0, 3⟩ : Span).Underlines Source.accented 0 ['é', 'a'] := by
  have hstarts := startsAt_accented 3
  have hstop : Source.OnBoundary Source.accented.toList (⟨0, 3⟩ : Span).stop.toNat := by
    rw [Source.accented, String.toList_ofList]
    decide
  exact ⟨hstarts, hstop, (underlines_iff hstarts hstop).1.mpr (.inl (by decide))⟩

/-- A span of the first character has two bytes, and the second character is marked with it. -/
theorem Span.not_underlines_accented :
    (⟨0, 2⟩ : Span).StartsAt Source.accented [] [] ['é', 'a'] [] ∧
      Source.OnBoundary Source.accented.toList (⟨0, 2⟩ : Span).stop.toNat ∧
      (⟨0, 2⟩ : Span).covered 0 ['é', 'a'] = [(0, 'é')] ∧
      (⟨0, 2⟩ : Span).marks? Source.accented = some 2 ∧
      ¬ (⟨0, 2⟩ : Span).Underlines Source.accented 0 ['é', 'a'] := by
  have hstarts := startsAt_accented 2
  have hstop : Source.OnBoundary Source.accented.toList (⟨0, 2⟩ : Span).stop.toNat := by
    rw [Source.accented, String.toList_ofList]
    decide
  have hmarks : (⟨0, 2⟩ : Span).marks? Source.accented = some 2 := hstarts.marks?
  refine ⟨hstarts, hstop, rfl, hmarks, ?_⟩
  rw [Underlines, hmarks]
  decide

end Catalog
