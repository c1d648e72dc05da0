import Catalog.Json.Reader
import Catalog.Proofs.Json.Scanning

/-!
Reading what has been printed. The reader follows the printer through a value and comes out where
the value ends, with a node that says what the value is.
-/
namespace Catalog.Json

mutual

/-- All numbers are whole ones that 64 bits hold, signed or unsigned. -/
def isWhole : Json → Bool
  | .number (.int i) => Int64.minValue.toInt ≤ i && i < UInt64.size
  | .number (.double _) => false
  | .array items => itemsWhole items
  | .object members => membersWhole members
  | _ => true

def itemsWhole : List Json → Bool
  | [] => true
  | j :: js => j.isWhole && itemsWhole js

def membersWhole : List (String × Json) → Bool
  | [] => true
  | (_, j) :: ms => j.isWhole && membersWhole ms

end

mutual

/-- A node holds a value, and no flaw. -/
inductive Node.Says : Node → Json → Prop
  | null : Node.Says .null .null
  | bool (b : Bool) : Node.Says (.bool b) (.bool b)
  | number {n : Numeral} {v : Number} (h : n.value? = some v) :
      Node.Says (.number (.ok n)) (.number v)
  | string (s : String) : Node.Says (.string (.ok s)) (.string s)
  | array {is : Items} {js : List Json} (h : is.Say js) : Node.Says (.array is) (.array js)
  | object {ms : Members} {kvs : List (String × Json)} (h : ms.Say kvs) :
      Node.Says (.object ms) (.object kvs)

inductive Items.Say : Items → List Json → Prop
  | nil : Items.Say .close []
  | cons {n : Node} {j : Json} {is : Items} {js : List Json} (hn : n.Says j) (h : is.Say js) :
      Items.Say (.item n is) (j :: js)

inductive Members.Say : Members → List (String × Json) → Prop
  | nil : Members.Say .close []
  | cons {key : Key} {k : String} {n : Node} {j : Json} {ms : Members}
      {kvs : List (String × Json)} (hk : key.Spells k) (hn : n.Says j) (h : ms.Say kvs) :
      Members.Say (.member key n ms) ((k, j) :: kvs)

end

/-! Blanks. -/

section Blanks

variable (l : Layout) (level : Nat) (s : List Char)

theorem skipBlank_line : skipBlank (l.line level ++ s) = skipBlank s := by
  cases l with
  | compact => rfl
  | indented =>
    apply List.dropWhile_append_of_pos
    intro c hc
    rcases List.mem_cons.mp hc with rfl | hc
    · rfl
    · rw [List.eq_of_mem_replicate hc]
      rfl

theorem skipBlank_cons {c : Char} (hc : isBlank c = false) : skipBlank (c :: s) = c :: s := by
  rw [skipBlank, List.dropWhile_cons_of_neg (by rw [hc]; exact Bool.false_ne_true)]

theorem skipBlank_colon : ∃ t, skipBlank (l.colon ++ s) = ':' :: t ∧ skipBlank t = skipBlank s := by
  cases l with
  | compact => exact ⟨s, rfl, rfl⟩
  | indented => exact ⟨' ' :: s, rfl, rfl⟩

/-- Readers look only at what comes after blanks. -/
theorem readNode_congr {s t : List Char} (h : skipBlank s = skipBlank t) (fuel : Nat) :
    readNode fuel s = readNode fuel t := by
  cases fuel with
  | zero => rfl
  | succ fuel => rw [readNode, readNode, h]

theorem readItem_congr {s t : List Char} (h : skipBlank s = skipBlank t) (fuel : Nat) :
    readItem fuel s = readItem fuel t := by
  cases fuel with
  | zero => rfl
  | succ fuel => rw [readItem, readItem, readNode_congr h]

theorem readItems_congr {s t : List Char} (h : skipBlank s = skipBlank t) (fuel : Nat)
    (first : Bool) : readItems fuel first s = readItems fuel first t := by
  cases fuel with
  | zero => rfl
  | succ fuel => rw [readItems, readItems, h]

theorem readMember_congr {s t : List Char} (h : skipBlank s = skipBlank t) (fuel : Nat) :
    readMember fuel s = readMember fuel t := by
  cases fuel with
  | zero => rfl
  | succ fuel => rw [readMember, readMember, h]

theorem readMembers_congr {s t : List Char} (h : skipBlank s = skipBlank t) (fuel : Nat)
    (first : Bool) : readMembers fuel first s = readMembers fuel first t := by
  cases fuel with
  | zero => rfl
  | succ fuel => rw [readMembers, readMembers, h]

end Blanks

/-! One step of each reader. -/

section Steps

variable (fuel : Nat) (s : List Char)

theorem readNode_string (k : String) : readNode (fuel + 1) (quote k ++ s)
    = (.string (.ok k), .ok s) := by
  have hstring := scanString_flatMap_escape s k.toList
  have hquote : quote k ++ s = '"' :: (k.toList.flatMap escape ++ '"' :: s) := by
    simp [quote]
  rw [readNode, hquote, skipBlank_cons _ rfl]
  simp only [if_true, readString, hstring, Except.map, String.ofList_toList]

theorem readNode_array : readNode (fuel + 1) ('[' :: s)
    = (.array (readItems fuel true s).1, (readItems fuel true s).2) := by
  rw [readNode, skipBlank_cons _ rfl]
  rfl

theorem readNode_object : readNode (fuel + 1) ('\x7b' :: s)
    = (.object (readMembers fuel true s).1, (readMembers fuel true s).2) := by
  rw [readNode, skipBlank_cons _ rfl]
  rfl

theorem readItems_close (first : Bool) : readItems (fuel + 1) first (']' :: s)
    = (.close, .ok s) := by
  rw [readItems, skipBlank_cons _ rfl]
  rfl

theorem readItems_comma : readItems (fuel + 1) false (',' :: s) = readItem fuel s := by
  rw [readItems, skipBlank_cons _ rfl]
  rfl

theorem readItems_first {c : Char} (hblank : isBlank c = false) (hclose : c ≠ ']') :
    readItems (fuel + 1) true (c :: s) = readItem fuel (c :: s) := by
  rw [readItems, skipBlank_cons _ hblank]
  simp only [if_neg hclose, if_true]

theorem readMembers_close (first : Bool) : readMembers (fuel + 1) first ('\x7d' :: s)
    = (.close, .ok s) := by
  rw [readMembers, skipBlank_cons _ rfl]
  rfl

theorem readMembers_comma : readMembers (fuel + 1) false (',' :: s) = readMember fuel s := by
  rw [readMembers, skipBlank_cons _ rfl]
  rfl

theorem readMembers_first : readMembers (fuel + 1) true ('"' :: s) = readMember fuel ('"' :: s) := by
  rw [readMembers, skipBlank_cons _ rfl]
  rfl

/-- An item and those after it. -/
theorem readItem_of_node {fuel : Nat} {s t u : List Char} {n : Node} {is : Items}
    (hn : readNode fuel s = (n, .ok t)) (his : readItems fuel false t = (is, .ok u)) :
    readItem (fuel + 1) s = (.item n is, .ok u) := by
  rw [readItem, hn]
  simp only [his]

/-- A member and those after it. -/
theorem readMember_of_node (l : Layout) {fuel : Nat} {k : String} {s t u : List Char} {n : Node}
    {ms : Members} (hn : readNode fuel s = (n, .ok t)) (hms : readMembers fuel false t = (ms, .ok u)) :
    ∃ key, readMember (fuel + 1) (quote k ++ l.colon ++ s) = (.member key n ms, .ok u) ∧
      key.Spells k := by
  obtain ⟨key, hscan, hkey⟩ := scanKey_quote k (l.colon ++ s)
  obtain ⟨t', hcolon, hblank⟩ := skipBlank_colon l s
  have hquote : quote k ++ l.colon ++ s = '"' :: (k.toList.flatMap escape ++ '"' :: (l.colon ++ s)) := by
    simp [quote]
  refine ⟨key, ?_, hkey⟩
  rw [readMember, hquote, skipBlank_cons _ rfl]
  simp only [if_true, hscan, hcolon]
  rw [readNode_congr hblank, hn]
  simp only [hms]

end Steps

/-! What comes after an item or a member. -/

theorem halts_line (l : Layout) (level : Nat) {c : Char} {s : List Char}
    (h : c.isDigit = false ∧ c ≠ '.' ∧ c ≠ 'e' ∧ c ≠ 'E') : Halts (l.line level ++ c :: s) := by
  cases l with
  | compact => exact halts_cons h
  | indented => exact halts_cons (by decide)

theorem halts_writeItems (l : Layout) (level : Nat) (js : List Json) {s : List Char}
    (h : Halts s) : Halts (writeItems l level js ++ s) := by
  cases js with
  | nil => exact h
  | cons j js => exact halts_cons (by decide)

theorem halts_writeMembers (l : Layout) (level : Nat) (kvs : List (String × Json)) {s : List Char}
    (h : Halts s) : Halts (writeMembers l level kvs ++ s) := by
  cases kvs with
  | nil => exact h
  | cons kv kvs => exact halts_cons (by decide)

/-- A number begins with a digit or a sign. -/
theorem exists_intText_cons (i : Int) :
    ∃ c cs, Number.intText i = c :: cs ∧ startsNumeral c = true := by
  unfold Number.intText
  split
  · exact ⟨'-', _, rfl, rfl⟩
  · obtain ⟨d, ds, hds, hdigit⟩ := exists_toDigits_cons i.natAbs
    refine ⟨d, ds, hds, ?_⟩
    rw [startsNumeral, hdigit, Bool.or_true]

/-- What begins a number begins nothing else. -/
theorem ne_of_startsNumeral {c c' : Char} (hc : startsNumeral c = true)
    (hc' : startsNumeral c' = false) : c ≠ c' := by
  rintro rfl
  rw [hc] at hc'
  cases hc'

theorem isBlank_of_startsNumeral {c : Char} (hc : startsNumeral c = true) : isBlank c = false := by
  have hne : ∀ c', startsNumeral c' = false → c ≠ c' := fun _ => ne_of_startsNumeral hc
  simp only [isBlank, Bool.or_eq_false_iff, decide_eq_false_iff_not]
  exact ⟨⟨⟨hne _ rfl, hne _ rfl⟩, hne _ rfl⟩, hne _ rfl⟩

theorem readNode_intText (fuel : Nat) (i : Int) {s : List Char} (hs : Halts s) :
    readNode (fuel + 1) (Number.intText i ++ s)
      = (.number (.ok (.ofDigits (i < 0) i.natAbs)), .ok s) := by
  have hscan := scanNumeral_intText i hs
  obtain ⟨c, cs, htext, hc⟩ := exists_intText_cons i
  have hne : ∀ c', startsNumeral c' = false → c ≠ c' := fun _ => ne_of_startsNumeral hc
  rw [htext, List.cons_append] at hscan ⊢
  rw [readNode, skipBlank_cons _ (isBlank_of_startsNumeral hc)]
  simp only [if_neg (hne '"' rfl), if_neg (hne '[' rfl), if_neg (hne '\x7b' rfl),
    if_neg (hne 'n' rfl), if_neg (hne 't' rfl), if_neg (hne 'f' rfl), if_pos hc, readNumeral, hscan]

/-- A value begins neither with a blank nor with a bracket that closes. -/
theorem exists_write_cons (l : Layout) (level : Nat) {j : Json} (hj : j.isWhole = true) :
    ∃ c cs, j.write l level = c :: cs ∧ isBlank c = false ∧ c ≠ ']' := by
  have found : ∀ {w : List Char} {c : Char} {cs : List Char}, w = c :: cs →
      isBlank c = false → c ≠ ']' → ∃ c cs, w = c :: cs ∧ isBlank c = false ∧ c ≠ ']' :=
    fun hw hblank hclose => ⟨_, _, hw, hblank, hclose⟩
  cases j with
  | null => exact found (by rw [write]) rfl (by decide)
  | bool b =>
    cases b with
    | true => exact found (by rw [write]) rfl (by decide)
    | false => exact found (by rw [write]) rfl (by decide)
  | number v =>
    cases v with
    | int i =>
      obtain ⟨c, cs, htext, hc⟩ := exists_intText_cons i
      have hwrite : write l level (.number (.int i)) = c :: cs := by
        rw [write, Number.text, htext]
      exact found hwrite (isBlank_of_startsNumeral hc) (ne_of_startsNumeral hc rfl)
    | double d => cases hj
  | string s => exact found (by rw [write, quote]) rfl (by decide)
  | array js =>
    cases js with
    | nil => exact found (by rw [write]) rfl (by decide)
    | cons j js => exact found (by rw [write]) rfl (by decide)
  | object kvs =>
    cases kvs with
    | nil => exact found (by rw [write]) rfl (by decide)
    | cons kv kvs => exact found (by rw [write]) rfl (by decide)

/-! The reader follows the printer. Three steps for each character are enough. -/

mutual

theorem readNode_write (l : Layout) (level : Nat) (j : Json) (hj : j.isWhole = true) (fuel : Nat)
    {s : List Char} (hfuel : 3 * (j.write l level).length ≤ fuel) (hs : Halts s) :
    ∃ n, readNode fuel (j.write l level ++ s) = (n, .ok s) ∧ n.Says j := by
  obtain ⟨c, cs, hwrite, -⟩ := exists_write_cons l level hj
  obtain ⟨fuel, rfl⟩ : ∃ f, fuel = f + 1 := by
    rw [hwrite, List.length_cons] at hfuel
    exact ⟨fuel - 1, by omega⟩
  match j with
  | .null => exact ⟨.null, by rw [write]; rfl, .null⟩
  | .bool true => exact ⟨.bool true, by rw [write]; rfl, .bool true⟩
  | .bool false => exact ⟨.bool false, by rw [write]; rfl, .bool false⟩
  | .number (.int i) =>
    simp only [isWhole, Bool.and_eq_true, decide_eq_true_eq] at hj
    refine ⟨_, ?_, .number (Numeral.value?_ofDigits hj.1 hj.2)⟩
    rw [write, Number.text]
    exact readNode_intText fuel i hs
  | .number (.double d) => cases hj
  | .string k =>
    refine ⟨_, ?_, .string k⟩
    rw [write]
    exact readNode_string fuel s k
  | .array [] =>
    rw [write, List.length_cons] at hfuel
    obtain ⟨fuel, rfl⟩ : ∃ f, fuel = f + 1 := ⟨fuel - 1, by omega⟩
    refine ⟨_, ?_, .array .nil⟩
    rw [write]
    change readNode (fuel + 1 + 1) ('[' :: ']' :: s) = _
    rw [readNode_array, readItems_close]
  | .array (j :: js) =>
    simp only [isWhole, itemsWhole, Bool.and_eq_true] at hj
    simp only [write, List.length_cons, List.length_append, List.length_nil] at hfuel
    obtain ⟨fuel, rfl⟩ : ∃ f, fuel = f + 2 := ⟨fuel - 2, by omega⟩
    obtain ⟨is, his, hsay⟩ := readItems_write l (level + 1) level js hj.2 fuel (s := s)
      (by omega)
    obtain ⟨n, hn, hsays⟩ := readNode_write l (level + 1) j hj.1 fuel
      (s := writeItems l (level + 1) js ++ (l.line level ++ ']' :: s)) (by omega)
      (halts_writeItems l _ js (halts_line l level (by decide)))
    refine ⟨_, ?_, .array (.cons hsays hsay)⟩
    have htext : write l level (.array (j :: js)) ++ s = '[' :: (l.line (level + 1) ++
        (j.write l (level + 1) ++ (writeItems l (level + 1) js ++ (l.line level ++ ']' :: s)))) := by
      simp [write]
    obtain ⟨c, cs, hj', hblank, hclose⟩ := exists_write_cons l (level + 1) hj.1
    rw [htext, readNode_array, readItems_congr (skipBlank_line l (level + 1) _), hj',
      List.cons_append, readItems_first _ _ hblank hclose, ← List.cons_append, ← hj',
      readItem_of_node hn his]
  | .object [] =>
    rw [write, List.length_cons] at hfuel
    obtain ⟨fuel, rfl⟩ : ∃ f, fuel = f + 1 := ⟨fuel - 1, by omega⟩
    refine ⟨_, ?_, .object .nil⟩
    rw [write]
    change readNode (fuel + 1 + 1) ('\x7b' :: '\x7d' :: s) = _
    rw [readNode_object, readMembers_close]
  | .object ((k, j) :: kvs) =>
    simp only [isWhole, membersWhole, Bool.and_eq_true] at hj
    simp only [write, List.length_cons, List.length_append, List.length_nil] at hfuel
    obtain ⟨fuel, rfl⟩ : ∃ f, fuel = f + 2 := ⟨fuel - 2, by omega⟩
    obtain ⟨ms, hms, hsay⟩ := readMembers_write l (level + 1) level kvs hj.2 fuel
      (s := s) (by omega)
    obtain ⟨n, hn, hsays⟩ := readNode_write l (level + 1) j hj.1 fuel
      (s := writeMembers l (level + 1) kvs ++ (l.line level ++ '\x7d' :: s)) (by omega)
      (halts_writeMembers l _ kvs (halts_line l level (by decide)))
    obtain ⟨key, hmember, hkey⟩ := readMember_of_node l (k := k) hn hms
    refine ⟨_, ?_, .object (.cons hkey hsays hsay)⟩
    have htext : write l level (.object ((k, j) :: kvs)) ++ s = '\x7b' :: (l.line (level + 1) ++
        (quote k ++ l.colon ++ (j.write l (level + 1) ++ (writeMembers l (level + 1) kvs ++
          (l.line level ++ '\x7d' :: s))))) := by
      simp [write]
    rw [htext, readNode_object, readMembers_congr (skipBlank_line l (level + 1) _)]
    have hfirst : ∀ t, readMembers (fuel + 2) true (quote k ++ t) = readMember (fuel + 1) (quote k ++ t) :=
      fun t => readMembers_first (fuel + 1) _
    rw [List.append_assoc, hfirst, ← List.append_assoc, hmember]

theorem readItems_write (l : Layout) (level outer : Nat) (js : List Json)
    (hjs : itemsWhole js = true) (fuel : Nat) {s : List Char}
    (hfuel : 3 * (writeItems l level js).length + 1 ≤ fuel) :
    ∃ is, readItems fuel false (writeItems l level js ++ (l.line outer ++ ']' :: s)) = (is, .ok s) ∧
      is.Say js := by
  match js with
  | [] =>
    obtain ⟨fuel, rfl⟩ : ∃ f, fuel = f + 1 := ⟨fuel - 1, by omega⟩
    refine ⟨_, ?_, .nil⟩
    rw [writeItems, List.nil_append, readItems_congr (skipBlank_line l outer _)]
    exact readItems_close fuel s false
  | j :: js =>
    simp only [itemsWhole, Bool.and_eq_true] at hjs
    simp only [writeItems, List.length_cons, List.length_append] at hfuel
    obtain ⟨fuel, rfl⟩ : ∃ f, fuel = f + 2 := ⟨fuel - 2, by omega⟩
    obtain ⟨is, his, hsay⟩ := readItems_write l level outer js hjs.2 fuel (s := s)
      (by omega)
    obtain ⟨n, hn, hsays⟩ := readNode_write l level j hjs.1 fuel
      (s := writeItems l level js ++ (l.line outer ++ ']' :: s)) (by omega)
      (halts_writeItems l _ js (halts_line l outer (by decide)))
    refine ⟨_, ?_, .cons hsays hsay⟩
    have htext : writeItems l level (j :: js) ++ (l.line outer ++ ']' :: s) = ',' ::
        (l.line level ++ (j.write l level ++ (writeItems l level js ++ (l.line outer ++ ']' :: s)))) := by
      simp [writeItems]
    rw [htext, readItems_comma, readItem_congr (skipBlank_line l level _)]
    exact readItem_of_node hn his

theorem readMembers_write (l : Layout) (level outer : Nat) (kvs : List (String × Json))
    (hkvs : membersWhole kvs = true) (fuel : Nat) {s : List Char}
    (hfuel : 3 * (writeMembers l level kvs).length + 1 ≤ fuel) :
    ∃ ms, readMembers fuel false (writeMembers l level kvs ++ (l.line outer ++ '\x7d' :: s))
        = (ms, .ok s) ∧ ms.Say kvs := by
  match kvs with
  | [] =>
    obtain ⟨fuel, rfl⟩ : ∃ f, fuel = f + 1 := ⟨fuel - 1, by omega⟩
    refine ⟨_, ?_, .nil⟩
    rw [writeMembers, List.nil_append, readMembers_congr (skipBlank_line l outer _)]
    exact readMembers_close fuel s false
  | (k, j) :: kvs =>
    simp only [membersWhole, Bool.and_eq_true] at hkvs
    simp only [writeMembers, List.length_cons, List.length_append] at hfuel
    obtain ⟨fuel, rfl⟩ : ∃ f, fuel = f + 2 := ⟨fuel - 2, by omega⟩
    obtain ⟨ms, hms, hsay⟩ := readMembers_write l level outer kvs hkvs.2 fuel (s := s)
      (by omega)
    obtain ⟨n, hn, hsays⟩ := readNode_write l level j hkvs.1 fuel
      (s := writeMembers l level kvs ++ (l.line outer ++ '\x7d' :: s)) (by omega)
      (halts_writeMembers l _ kvs (halts_line l outer (by decide)))
    obtain ⟨key, hmember, hkey⟩ := readMember_of_node l (k := k) hn hms
    refine ⟨_, ?_, .cons hkey hsays hsay⟩
    have htext : writeMembers l level ((k, j) :: kvs) ++ (l.line outer ++ '\x7d' :: s) = ',' ::
        (l.line level ++ (quote k ++ l.colon ++ (j.write l level ++
          (writeMembers l level kvs ++ (l.line outer ++ '\x7d' :: s))))) := by
      simp [writeMembers]
    rw [htext, readMembers_comma, readMember_congr (skipBlank_line l level _), hmember]

end

/-- A whole text is read to its end. -/
theorem readText_write (l : Layout) {j : Json} (hj : j.isWhole = true) :
    ∃ n, readText (j.write l 0) = (n, .ok []) ∧ n.Says j := by
  obtain ⟨n, hread, hsays⟩ := readNode_write l 0 j hj _ (Nat.le_add_right _ 3) halts_nil
  rw [List.append_nil] at hread
  exact ⟨n, hread, hsays⟩

/-! Compact text is one line. -/

theorem newline_notMem_escape (c : Char) : '\n' ∉ escape c := by
  have hhex : ∀ n, '\n' ≠ hexDigit n := fun n => (Nat.digitChar_ne '\n' rfl).symm
  unfold escape
  split
  · decide
  split
  · decide
  split
  · decide
  split
  · decide
  split
  · decide
  split
  · decide
  split
  · decide
  split
  · simp [hhex]
  · rename_i hline _ _ _ _ _
    simpa using Ne.symm hline

theorem newline_notMem_quote (k : String) : '\n' ∉ quote k := by
  simp [quote, newline_notMem_escape]

theorem newline_notMem_toDigits (n : Nat) : '\n' ∉ Nat.toDigits 10 n := by
  intro hmem
  have hdigit := isDigit_toDigits _ hmem
  cases hdigit

theorem newline_notMem_intText (i : Int) : '\n' ∉ Number.intText i := by
  unfold Number.intText
  split
  · simpa using newline_notMem_toDigits i.natAbs
  · exact newline_notMem_toDigits i.natAbs

theorem newline_notMem_decimalText (digits : Nat) (place : Int) :
    '\n' ∉ Number.decimalText digits place := by
  have hdigits := newline_notMem_toDigits digits
  have hzeros : ∀ n, '\n' ∉ List.replicate n '0' := fun n hmem =>
    absurd (List.eq_of_mem_replicate hmem) (by decide)
  unfold Number.decimalText
  generalize Nat.toDigits 10 digits = ds at hdigits ⊢
  dsimp only
  split
  · rw [List.mem_append, List.mem_cons, List.mem_cons, not_or, not_or, not_or]
    refine ⟨?_, by decide, ?_, newline_notMem_toDigits _⟩
    · split
      · simpa using hdigits
      · exact hdigits
    · split <;> decide
  split
  · simp [hzeros, hdigits]
  split
  · simp [hzeros, hdigits]
  · simp only [List.mem_append, List.mem_cons, not_or]
    exact ⟨fun hmem => hdigits (List.mem_of_mem_take hmem), by decide,
      fun hmem => hdigits (List.mem_of_mem_drop hmem)⟩

theorem newline_notMem_doubleText (d : Decimal.Double) : '\n' ∉ Number.doubleText d := by
  have hmagnitude : '\n' ∉ (if d.significand = 0 then ['0', '.', '0']
      else Number.decimalText (Decimal.shortest d.significand d.exponent).1
        (Decimal.shortest d.significand d.exponent).2) := by
    split
    · decide
    · exact newline_notMem_decimalText _ _
  change '\n' ∉ if d.negative then '-' :: _ else _
  split
  · rw [List.mem_cons, not_or]
    exact ⟨by decide, hmagnitude⟩
  · exact hmagnitude

theorem newline_notMem_number (n : Number) : '\n' ∉ n.text := by
  cases n with
  | int i => exact newline_notMem_intText i
  | double d => exact newline_notMem_doubleText d

mutual

theorem newline_notMem_write (level : Nat) (j : Json) : '\n' ∉ j.write .compact level := by
  match j with
  | .null | .bool true | .bool false | .array [] | .object [] =>
    rw [write]
    decide
  | .number n =>
    rw [write]
    exact newline_notMem_number n
  | .string k =>
    rw [write]
    exact newline_notMem_quote k
  | .array (j :: js) =>
    simp [write, Layout.line, newline_notMem_write (level + 1) j,
      newline_notMem_writeItems (level + 1) js]
  | .object ((k, j) :: kvs) =>
    simp [write, Layout.line, Layout.colon, newline_notMem_quote,
      newline_notMem_write (level + 1) j, newline_notMem_writeMembers (level + 1) kvs]

theorem newline_notMem_writeItems (level : Nat) (js : List Json) :
    '\n' ∉ writeItems .compact level js := by
  match js with
  | [] => exact List.not_mem_nil
  | j :: js =>
    simp [writeItems, Layout.line, newline_notMem_write level j,
      newline_notMem_writeItems level js]

theorem newline_notMem_writeMembers (level : Nat) (kvs : List (String × Json)) :
    '\n' ∉ writeMembers .compact level kvs := by
  match kvs with
  | [] => exact List.not_mem_nil
  | (k, j) :: kvs =>
    simp [writeMembers, Layout.line, Layout.colon, newline_notMem_quote,
      newline_notMem_write level j, newline_notMem_writeMembers level kvs]

end

end Catalog.Json
