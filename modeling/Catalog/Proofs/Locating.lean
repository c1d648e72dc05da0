import Catalog.Proofs.Positions
import Mathlib.Data.List.Induction
import Mathlib.Data.Prod.Lex
import Mathlib.Data.Set.Function
import Mathlib.Order.Bounds.Defs
import Mathlib.Order.Monotone.Defs

/-!
Positions tell where things stand. The line of a character is one of the pieces that the text is cut
into, its column is the place in that piece, and what stands later in the text has the greater
position.
-/
namespace Catalog.Source

/-! Reading on. -/

/-- The position behind a character, from the one before it. -/
def readOn (place : Nat × Nat) (c : Char) : Nat × Nat :=
  if c = '\n' then (place.1 + 1, 1) else (place.1, place.2 + 1)

theorem lastLine_concat (cs : List Char) (c : Char) :
    lastLine (cs ++ [c]) = if c = '\n' then [] else lastLine cs ++ [c] := by
  by_cases hc : c = '\n' <;> simp [lastLine, hc]

theorem positionAfter_concat (cs : List Char) (c : Char) :
    positionAfter (cs ++ [c]) = readOn (positionAfter cs) c := by
  by_cases hc : c = '\n' <;> simp [positionAfter, readOn, lastLine_concat, List.count_append, hc]

/-- Positions are what lines and columns come to when they are counted on the way. -/
theorem foldl_readOn (cs ds : List Char) :
    ds.foldl readOn (positionAfter cs) = positionAfter (cs ++ ds) := by
  induction ds generalizing cs with
  | nil => rw [List.append_nil, List.foldl_nil]
  | cons d ds ih =>
    rw [List.foldl_cons, ← positionAfter_concat, ih, List.append_assoc, List.singleton_append]

theorem lt_readOn (place : Nat × Nat) (c : Char) : toLex place < toLex (readOn place c) := by
  rw [readOn, Prod.Lex.toLex_lt_toLex]
  split
  · exact .inl (Nat.lt_succ_self _)
  · exact .inr ⟨rfl, Nat.lt_succ_self _⟩

theorem lt_foldl_readOn (place : Nat × Nat) {ds : List Char} (hne : ds ≠ []) :
    toLex place < toLex (ds.foldl readOn place) := by
  induction ds generalizing place with
  | nil => exact absurd rfl hne
  | cons d ds ih =>
    have hstep := lt_readOn place d
    rcases ds with _ | ⟨e, ds⟩
    · exact hstep
    · exact hstep.trans (ih (readOn place d) (List.cons_ne_nil e ds))

/-! Boundaries. -/

theorem utf8ByteSize_ofList (cs : List Char) : (String.ofList cs).utf8ByteSize = byteCount cs := by
  induction cs with
  | nil => rfl
  | cons c cs ih =>
    have hsplit : String.ofList (c :: cs) = String.singleton c ++ String.ofList cs := by
      rw [String.singleton_eq_ofList, ← String.ofList_append, List.singleton_append]
    rw [hsplit, String.utf8ByteSize_append, String.utf8ByteSize_singleton, ih, byteCount]

theorem byteCount_toList (source : String) : byteCount source.toList = source.utf8ByteSize := by
  rw [← utf8ByteSize_ofList, String.ofList_toList]

/-- The offsets between the characters of a text, its start and its end included. -/
def boundaries (source : String) : Set Nat :=
  {n | String.Pos.Raw.IsValid source ⟨n⟩}

theorem mem_boundaries_iff {source : String} {n : Nat} :
    n ∈ boundaries source ↔ ∃ p, p <+: source.toList ∧ byteCount p = n := by
  rw [boundaries, Set.mem_ofPred_eq, String.Pos.Raw.isValid_iff_exists_append]
  constructor
  · rintro ⟨s, t, rfl, hend⟩
    refine ⟨s.toList, ⟨t.toList, String.toList_append.symm⟩, ?_⟩
    rw [byteCount_toList]
    exact (congrArg String.Pos.Raw.byteIdx hend).symm
  · rintro ⟨p, ⟨q, hq⟩, rfl⟩
    refine ⟨String.ofList p, String.ofList q, ?_, ?_⟩
    · rw [← String.ofList_append, hq, String.ofList_toList]
    · rw [← utf8ByteSize_ofList]
      rfl

theorem position_byteCount {source : String} {p : List Char} (hp : p <+: source.toList) :
    position source (byteCount p) = positionAfter p := by
  obtain ⟨q, hq⟩ := hp
  rw [position, ← hq, before_byteCount]

theorem before_mono (cs : List Char) {m n : Nat} (hle : m ≤ n) : before cs m <+: before cs n := by
  induction cs generalizing m n with
  | nil => exact List.prefix_rfl
  | cons c cs ih =>
    rw [before, before]
    by_cases hm : m = 0
    · rw [if_pos hm]
      exact List.nil_prefix
    · rw [if_neg hm, if_neg (by omega), List.prefix_cons_inj]
      exact ih (Nat.sub_le_sub_right hle _)

/-- What begins before an offset reaches to the boundary that comes next. -/
theorem isLeast_byteCount_before {source : String} {n : Nat} (hn : n ≤ source.utf8ByteSize) :
    IsLeast {b ∈ boundaries source | n ≤ b} (byteCount (before source.toList n)) := by
  have hprefix := prefix_before source.toList n
  refine ⟨⟨mem_boundaries_iff.mpr ⟨_, hprefix, rfl⟩, ?_⟩, ?_⟩
  · have hreach := le_byteCount_before source.toList n
    rwa [byteCount_toList, Nat.min_eq_left hn] at hreach
  · rintro b ⟨hb, hle⟩
    obtain ⟨p, ⟨q, hq⟩, rfl⟩ := mem_boundaries_iff.mp hb
    have hmono := before_mono source.toList hle
    rw [← hq, before_byteCount, hq] at hmono
    exact byteCount_mono hmono

theorem position_strictMonoOn (source : String) :
    StrictMonoOn (fun n => toLex (position source n)) (boundaries source) := by
  intro m hm n hn hlt
  obtain ⟨p, hp, rfl⟩ := mem_boundaries_iff.mp hm
  obtain ⟨p', hp', rfl⟩ := mem_boundaries_iff.mp hn
  -- The shorter beginning is the one with fewer bytes.
  obtain ⟨r, rfl⟩ : p <+: p' := by
    refine (List.prefix_or_prefix_of_prefix hp hp').resolve_right fun hback => ?_
    exact Nat.not_le_of_lt hlt (byteCount_mono hback)
  have hne : r ≠ [] := by
    rintro rfl
    simp at hlt
  simp only [position_byteCount hp, position_byteCount hp', ← foldl_readOn]
  exact lt_foldl_readOn _ hne

/-! Pieces. -/

theorem pieces_cons_of_ne {c : Char} (hc : c ≠ '\n') (cs : List Char) :
    pieces (c :: cs) = (pieces cs).modifyHead (c :: ·) := by
  simp [pieces_eq_splitOn, List.splitOn_cons_eq_if_modifyHead, hc]

theorem length_pieces (cs : List Char) : (pieces cs).length = cs.count '\n' + 1 := by
  induction cs with
  | nil => rfl
  | cons c cs ih =>
    by_cases hc : c = '\n'
    · simp [pieces, hc, ih]
    · simp [pieces_cons_of_ne hc, hc, ih]

theorem head?_pieces (cs : List Char) : (pieces cs).head? = some (cs.takeWhile (· != '\n')) := by
  induction cs with
  | nil => rfl
  | cons c cs ih =>
    by_cases hc : c = '\n'
    · simp [pieces, hc]
    · simp [pieces_cons_of_ne hc, hc, ih]

theorem pieces_append_newline (p q : List Char) :
    pieces (p ++ '\n' :: q) = pieces p ++ pieces q := by
  simp only [pieces_eq_splitOn, List.splitOn_append_cons_self]

/-- The piece that is being read when `p` has been read: what has been read of it and what is left
of it. -/
theorem getElem?_pieces (p q : List Char) :
    (pieces (p ++ q))[p.count '\n']? = some (lastLine p ++ q.takeWhile (· != '\n')) := by
  induction p using List.reverseRecOn generalizing q with
  | nil => simpa [lastLine, List.head?_eq_getElem?] using head?_pieces q
  | append_singleton p c ih =>
    rw [List.append_assoc, List.singleton_append, lastLine_concat]
    by_cases hc : c = '\n'
    · -- The break ends the pieces of `p`, and the next one begins with `q`.
      subst hc
      rw [pieces_append_newline, List.getElem?_append_right (by simp [length_pieces])]
      simpa [length_pieces, List.head?_eq_getElem?] using head?_pieces q
    · have hbefore := ih (c :: q)
      simpa [hc, List.count_append] using hbefore

/-! Locating. -/

/-- Where a character begins, the position is the line and the column where it stands. -/
theorem exists_piece_of_append {p q : List Char} {c : Char} (hc : c ≠ '\n') :
    ∃ line column piece, positionAfter p = (line + 1, column + 1) ∧
      ((p ++ c :: q).splitOn '\n')[line]? = some piece ∧ piece[column]? = some c := by
  have hpiece := getElem?_pieces p (c :: q)
  rw [pieces_eq_splitOn] at hpiece
  exact ⟨_, _, _, rfl, hpiece, by simp [hc]⟩

/-- A way of locating offsets that tells where in the lines of a text the characters stand and keeps
their order. Lines and columns are counted from one. -/
structure Locates (source : String) (locate : Nat → Nat × Nat) : Prop where
  /-- A character that does not end its line is found there, where it begins. -/
  character : ∀ (p q : String) (c : Char), source = p ++ String.singleton c ++ q → c ≠ '\n' →
    ∃ line column piece, locate p.utf8ByteSize = (line + 1, column + 1) ∧
      (source.toList.splitOn '\n')[line]? = some piece ∧ piece[column]? = some c
  /-- Further boundaries have greater positions, by lines and then by columns. -/
  ascending : StrictMonoOn (fun n => toLex (locate n)) (boundaries source)
  injective : Set.InjOn locate (boundaries source)
  /-- Offsets inside a character are located with the boundary behind it. -/
  within : ∀ n ≤ source.utf8ByteSize,
    ∃ b, IsLeast {b ∈ boundaries source | n ≤ b} b ∧ locate n = locate b
  beyond : ∀ n, source.utf8ByteSize ≤ n → locate n = locate source.utf8ByteSize

/-- Positions locate the characters of every text. -/
theorem locates_position (source : String) : Locates source (position source) where
  character := by
    rintro p q c rfl hc
    have htext : (p ++ String.singleton c ++ q).toList = p.toList ++ c :: q.toList := by
      simp [String.toList_append]
    have hstart : position (p ++ String.singleton c ++ q) p.utf8ByteSize =
        positionAfter p.toList := by
      rw [← byteCount_toList, position_byteCount (by rw [htext]; exact List.prefix_append _ _)]
    rw [hstart, htext]
    exact exists_piece_of_append hc
  ascending := position_strictMonoOn source
  injective := by
    intro m hm n hn heq
    exact (position_strictMonoOn source).injOn hm hn (congrArg toLex heq)
  within := by
    intro n hn
    refine ⟨_, isLeast_byteCount_before hn, ?_⟩
    rw [position_byteCount (prefix_before source.toList n), position]
  beyond := by
    intro n hn
    have hle : byteCount source.toList ≤ source.utf8ByteSize := Nat.le_of_eq (byteCount_toList _)
    rw [position, position, before_of_le (Nat.le_trans hle hn), before_of_le hle]

/-- The second offset lies inside a character and the third one before the break behind it. -/
example : [0, 1, 2, 3, 4, 5].map (position "é\na") =
    [(1, 1), (1, 2), (1, 2), (2, 1), (2, 2), (2, 2)] := by
  decide

end Catalog.Source
