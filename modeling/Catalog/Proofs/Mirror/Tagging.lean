import Catalog.Assembly.Tag
import Catalog.Proofs.Mirror.Resolve

/-!
Linking the tables of a schema to tags: the tags that mentions imply are added, with the numbers
that come next, and each table ends up with the tags that it mentions.
-/
namespace Catalog

open Decl.Schema (impliedTags)

/-! Implied tags, mention by mention. -/

theorem impliedTags_congr {known known' : List String} (h : ∀ name, name ∈ known ↔ name ∈ known')
    (ms : List Decl.Mention) : impliedTags known ms = impliedTags known' ms := by
  induction ms generalizing known known' with
  | nil => rfl
  | cons m ms ih =>
    unfold impliedTags
    simp only [h m.name, ih h]
    split
    · rfl
    · congr 1
      apply ih
      intro name
      rw [List.mem_cons, List.mem_cons, h name]

theorem impliedTags_cons (known : List String) (m : Decl.Mention) (ms : List Decl.Mention) :
    impliedTags known (m :: ms) =
      if m.name ∈ known then impliedTags known ms
      else { name := m.name, token := m.token } :: impliedTags (m.name :: known) ms :=
  rfl

theorem impliedTags_append (known : List String) (ms ms' : List Decl.Mention) :
    impliedTags known (ms ++ ms')
      = impliedTags known ms ++ impliedTags (known ++ ms.map (·.name)) ms' := by
  induction ms generalizing known with
  | nil => simp [impliedTags]
  | cons m ms ih =>
    rw [List.cons_append, impliedTags_cons, impliedTags_cons]
    split
    · rename_i hm
      rw [ih known]
      congr 1
      apply impliedTags_congr
      intro name
      simp only [List.mem_append, List.map_cons, List.mem_cons]
      constructor
      · rintro (hn | hn)
        · exact .inl hn
        · exact .inr (.inr hn)
      · rintro (hn | rfl | hn)
        · exact .inl hn
        · exact .inl hm
        · exact .inr hn
    · rw [ih (m.name :: known), List.cons_append]
      congr 2
      apply impliedTags_congr
      intro name
      simp only [List.mem_append, List.map_cons, List.mem_cons]
      tauto

/-! Drawing tags and nothing else. -/

namespace Allocator.Drew

variable {a a' a'' : Allocator} {n n' : Nat}

theorem tags_zero (a : Allocator) : a.Drew a fun k => if k = .tag then 0 else 0 := by
  simp only [ite_self]
  exact .refl a

theorem tags_trans (h : a.Drew a' fun k => if k = .tag then n else 0)
    (h' : a'.Drew a'' fun k => if k = .tag then n' else 0) :
    a.Drew a'' fun k => if k = .tag then n + n' else 0 := by
  have hneed : (fun k => (if k = Kind.tag then n else 0) + if k = Kind.tag then n' else 0)
      = fun k => if k = .tag then n + n' else 0 := by
    funext k
    split <;> rfl
  rw [← hneed]
  exact h.trans h'

theorem next_tag (h : a.Drew a' fun k => if k = .tag then n else 0) :
    a'.next .tag = a.next .tag + n := by
  rw [h.next .tag, if_pos rfl]

end Allocator.Drew

/-! The tags of one schema. -/

/-- A tag apart from its links. -/
def Tag.key (t : Tag) : Nat × Decl.Tag :=
  (t.id.toNat, t.declared)

def tagNames (tags : List Tag) : List String :=
  tags.map (·.name)

theorem notMem_tagNames_of_find? {tags : List Tag} {name : String}
    (h : tags.find? (·.name = name) = none) : name ∉ tagNames tags := by
  intro hknown
  obtain ⟨t, ht, hname⟩ := List.mem_map.mp hknown
  exact List.find?_eq_none.mp h t ht (by simpa using hname)

theorem impliedTags_of_new {known : List String} {m : Decl.Mention} (h : m.name ∉ known) :
    impliedTags known [m] = [{ name := m.name, token := m.token }] := by
  rw [impliedTags_cons, if_neg h]
  rfl

/-- The tags that mentions imply have come last, with the numbers that came next. -/
structure TagsGrow (tags tags' : List Tag) (a a' : Allocator) (ms : List Decl.Mention) : Prop where
  drew : a.Drew a' fun k => if k = .tag then (impliedTags (tagNames tags) ms).length else 0
  keys : ∃ new, tags'.map (·.key) = tags.map (·.key) ++ new ∧
    new.map (·.1) = List.range' (a.next .tag) (impliedTags (tagNames tags) ms).length ∧
    new.map (·.2) = impliedTags (tagNames tags) ms

/-- Names and numbers tell tags apart, and the next number is a new one. -/
structure TagsTold (tags : List Tag) (a : Allocator) : Prop where
  names : (tagNames tags).Nodup
  numbers : (tags.map (·.id.toNat)).Nodup
  below : ∀ t ∈ tags, t.id.toNat < a.next .tag

section Tags

variable {tags tags' tags'' : List Tag} {a a' a'' : Allocator} {ms ms' : List Decl.Mention}

theorem tagNames_eq (tags : List Tag) : tagNames tags = (tags.map (·.key)).map (·.2.name) := by
  rw [List.map_map]
  rfl

theorem TagsGrow.of_known (h : impliedTags (tagNames tags) ms = []) :
    TagsGrow tags tags a a ms where
  drew := by
    rw [h]
    exact .tags_zero a
  keys := ⟨[], by simp, by rw [h]; rfl, by rw [h]; rfl⟩

theorem TagsGrow.of_issue {m : Decl.Mention} {i : Id .tag}
    (h : impliedTags (tagNames tags) [m] = [{ name := m.name, token := m.token }])
    (hi : a.peek .tag = some i) :
    TagsGrow tags (tags ++ [{ name := m.name, id := i, token := m.token }]) a (a.advance .tag)
      [m] where
  drew := by
    rw [h]
    exact ((draws_issue .tag (Q := fun _ => False) a).of_run_ok (issue_some hi)).1
  keys := by
    refine ⟨[(i.toNat, { name := m.name, token := m.token })], by rw [List.map_append]; rfl, ?_, ?_⟩
    · rw [h, Allocator.peek_eq_some_iff.mp hi]
      rfl
    · rw [h]
      rfl

theorem TagsGrow.names (h : TagsGrow tags tags' a a' ms) :
    tagNames tags' = tagNames tags ++ (impliedTags (tagNames tags) ms).map (·.name) := by
  obtain ⟨new, hkeys, -, hdecl⟩ := h.keys
  rw [← hdecl, tagNames_eq tags', hkeys, List.map_append, ← tagNames_eq, List.map_map]
  rfl

theorem TagsGrow.mem_names (h : TagsGrow tags tags' a a' ms) (name : String) :
    name ∈ tagNames tags' ↔ name ∈ tagNames tags ++ ms.map (·.name) := by
  rw [h.names, List.mem_append, List.mem_append, Decl.Schema.mem_impliedTags_name]
  tauto

theorem TagsGrow.trans (h : TagsGrow tags tags' a a' ms) (h' : TagsGrow tags' tags'' a' a'' ms') :
    TagsGrow tags tags'' a a'' (ms ++ ms') := by
  have hnames : impliedTags (tagNames tags') ms'
      = impliedTags (tagNames tags ++ ms.map (·.name)) ms' :=
    impliedTags_congr h.mem_names ms'
  constructor
  · rw [impliedTags_append, ← hnames, List.length_append]
    exact h.drew.tags_trans h'.drew
  · obtain ⟨new, hkeys, hnumbers, hdecl⟩ := h.keys
    obtain ⟨new', hkeys', hnumbers', hdecl'⟩ := h'.keys
    refine ⟨new ++ new', ?_, ?_, ?_⟩
    · rw [hkeys', hkeys, List.append_assoc]
    · rw [List.map_append, hnumbers, hnumbers', impliedTags_append, ← hnames, List.length_append,
        h.drew.next_tag, List.range'_append_1]
    · rw [List.map_append, hdecl, hdecl', impliedTags_append, hnames]

theorem TagsTold.of_grow (h : TagsTold tags a) (hg : TagsGrow tags tags' a a' ms) :
    TagsTold tags' a' := by
  obtain ⟨new, hkeys, hnumbers, hdecl⟩ := hg.keys
  have hids : tags'.map (·.id.toNat) = tags.map (·.id.toNat) ++ new.map (·.1) := by
    have hmap := congrArg (List.map (·.1)) hkeys
    rw [List.map_append, List.map_map, List.map_map] at hmap
    exact hmap
  have hnext := hg.drew.next_tag
  constructor
  · rw [hg.names, List.nodup_append]
    refine ⟨h.names, Decl.Schema.nodup_impliedTags _ _, ?_⟩
    rintro name hname _ himplied rfl
    exact (Decl.Schema.mem_impliedTags_name.mp himplied).1 hname
  · rw [hids, List.nodup_append]
    refine ⟨h.numbers, hnumbers ▸ List.nodup_range', ?_⟩
    rintro n hn _ hnew rfl
    obtain ⟨t, ht, rfl⟩ := List.mem_map.mp hn
    rw [hnumbers, List.mem_range'_1] at hnew
    have hbelow := h.below t ht
    omega
  · intro t ht
    have hmem : t.id.toNat ∈ tags'.map (·.id.toNat) := List.mem_map.mpr ⟨t, ht, rfl⟩
    rw [hids, List.mem_append] at hmem
    rcases hmem with hmem | hmem
    · obtain ⟨u, hu, heq⟩ := List.mem_map.mp hmem
      have hbelow := h.below u hu
      omega
    · rw [hnumbers, List.mem_range'_1] at hmem
      omega

end Tags

/-- An identifier is that of a tag with some name. -/
def TagFor (tags : List Tag) (id : Id .tag) (name : String) : Prop :=
  ∃ t ∈ tags, t.id = id ∧ t.name = name

theorem TagFor.of_keys {tags tags' : List Tag} {id : Id .tag} {name : String}
    (h : TagFor tags id name) (hkeys : tags.map (·.key) ⊆ tags'.map (·.key)) :
    TagFor tags' id name := by
  obtain ⟨t, ht, rfl, rfl⟩ := h
  obtain ⟨t', ht', heq⟩ := List.mem_map.mp (hkeys (List.mem_map.mpr ⟨t, ht, rfl⟩))
  injection heq with hid hdecl
  exact ⟨t', ht', Id.toNat_inj hid, congrArg (·.name) hdecl⟩

theorem TagsGrow.tagFor {tags tags' : List Tag} {a a' : Allocator} {ms : List Decl.Mention}
    (h : TagsGrow tags tags' a a' ms) {id : Id .tag} {name : String} (ht : TagFor tags id name) :
    TagFor tags' id name := by
  obtain ⟨new, hkeys, -⟩ := h.keys
  apply ht.of_keys
  rw [hkeys]
  exact List.subset_append_left _ _

/-- Names and identifiers of tags determine each other. -/
theorem TagsTold.tagFor_iff {tags : List Tag} {a : Allocator} (h : TagsTold tags a)
    {id id' : Id .tag} {name name' : String} (ht : TagFor tags id name)
    (ht' : TagFor tags id' name') : id = id' ↔ name = name' := by
  obtain ⟨t, ht, rfl, rfl⟩ := ht
  obtain ⟨t', ht', rfl, rfl⟩ := ht'
  constructor
  · intro hid
    rw [List.inj_on_of_nodup_map h.numbers ht ht' (by rw [hid])]
  · intro hname
    rw [List.inj_on_of_nodup_map h.names ht ht' hname]

/-- One more mention adds its tag to those of a table unless it is there. -/
theorem TagsTold.paired_pushNew {tags : List Tag} {a : Allocator} (h : TagsTold tags a)
    {bound : List (Id .tag)} {seen : List String} {id : Id .tag} {name : String}
    (hbound : List.Forall₂ (TagFor tags) bound seen.eraseDups) (hid : TagFor tags id name) :
    List.Forall₂ (TagFor tags) (pushNew bound id) (seen ++ [name]).eraseDups := by
  have hold : id ∈ bound ↔ name ∈ seen := by
    constructor
    · intro hmem
      obtain ⟨name', hname', hfor⟩ := exists_right_of_paired hbound hmem
      rw [(h.tagFor_iff hid hfor).mp rfl]
      exact List.mem_eraseDups.mp hname'
    · intro hmem
      obtain ⟨id', hid', hfor⟩ := exists_left_of_paired hbound (List.mem_eraseDups.mpr hmem)
      rw [(h.tagFor_iff hid hfor).mpr rfl]
      exact hid'
  unfold pushNew
  rw [eraseDups_concat]
  by_cases hmem : name ∈ seen
  · rw [if_pos (hold.mpr hmem), if_pos hmem]
    exact hbound
  · rw [if_neg fun hid => hmem (hold.mp hid), if_neg hmem]
    exact paired_append hbound (.cons hid .nil)

/-- The numbers of tags do not suffice for those that mentions imply. -/
def TagsExhausted (tags : List Tag) (a : Allocator) (ms : List Decl.Mention) (r : Rejection) :
    Prop :=
  r.kind = .idSpaceExhausted ∧
    UInt32.size < a.next .tag + (impliedTags (tagNames tags) ms).length

theorem TagsExhausted.append_right {tags : List Tag} {a : Allocator} {ms : List Decl.Mention}
    {r : Rejection} (h : TagsExhausted tags a ms r) (ms' : List Decl.Mention) :
    TagsExhausted tags a (ms ++ ms') r := by
  refine ⟨h.1, ?_⟩
  have hlt := h.2
  rw [impliedTags_append, List.length_append]
  omega

theorem TagsGrow.exhausted {tags tags' : List Tag} {a a' : Allocator} {ms ms' : List Decl.Mention}
    {r : Rejection} (h : TagsGrow tags tags' a a' ms) (hr : TagsExhausted tags' a' ms' r) :
    TagsExhausted tags a (ms ++ ms') r := by
  refine ⟨hr.1, ?_⟩
  have hlt := hr.2
  rw [h.drew.next_tag, impliedTags_congr h.mem_names] at hlt
  rw [impliedTags_append, List.length_append]
  omega

theorem TagsGrow.of_keys {tags tags' tags'' : List Tag} {a a' : Allocator}
    {ms : List Decl.Mention} (h : TagsGrow tags tags' a a' ms)
    (hkeys : tags''.map (·.key) = tags'.map (·.key)) : TagsGrow tags tags'' a a' ms :=
  ⟨h.drew, hkeys ▸ h.keys⟩

namespace Tagging

variable {g : Tagging} {a : Allocator} {seen : List String} {table : Id .table}

theorem keys_link (g : Tagging) (table : Id .table) (tag : Id .tag) :
    (g.link table tag).tags.map (·.key) = g.tags.map (·.key) := by
  simp only [link, List.map_map]
  apply List.map_congr_left
  intro t _
  simp only [Function.comp_apply]
  split <;> rfl

/-- However a tag comes about, linking a table to it comes last. -/
theorem link_mentioned (htold : TagsTold g.tags a)
    (hbound : List.Forall₂ (TagFor g.tags) g.bound seen.eraseDups) (g₁ : Tagging) {a₁ : Allocator}
    {m : Decl.Mention} {i : Id .tag} (hsame : g₁.bound = g.bound)
    (hgrow : TagsGrow g.tags g₁.tags a a₁ [m]) (hi : TagFor g₁.tags i m.name) :
    TagsGrow g.tags (g₁.link table i).tags a a₁ [m] ∧
      List.Forall₂ (TagFor (g₁.link table i).tags) (g₁.link table i).bound
        (seen ++ [m.name]).eraseDups := by
  have hgrow' := hgrow.of_keys (g₁.keys_link table i)
  have hkeys : g₁.tags.map (·.key) ⊆ (g₁.link table i).tags.map (·.key) := by
    rw [g₁.keys_link]
    exact List.Subset.refl _
  refine ⟨hgrow', ?_⟩
  apply (htold.of_grow hgrow').paired_pushNew
  · rw [hsame]
    exact hbound.imp fun _ _ ht => hgrow'.tagFor ht
  · exact hi.of_keys hkeys

theorem meets_mention (htold : TagsTold g.tags a)
    (hbound : List.Forall₂ (TagFor g.tags) g.bound seen.eraseDups) (m : Decl.Mention) :
    (g.mention table m).Meets a
      (fun g' a' => TagsGrow g.tags g'.tags a a' [m] ∧
        List.Forall₂ (TagFor g'.tags) g'.bound (seen ++ [m.name]).eraseDups)
      (fun r _ => TagsExhausted g.tags a [m] r) := by
  unfold mention
  cases hfind : g.tags.find? (·.name = m.name) with
  | some t =>
    have hmem := List.mem_of_find?_eq_some hfind
    have hname : t.name = m.name :=
      of_decide_eq_true (List.find?_some (p := fun t : Tag => decide (t.name = m.name)) hfind)
    have hknown : m.name ∈ tagNames g.tags := List.mem_map.mpr ⟨t, hmem, hname⟩
    have himplied : impliedTags (tagNames g.tags) [m] = [] := by
      rw [impliedTags_cons, if_pos hknown]
      rfl
    apply Attempt.meets_pure
    exact link_mentioned htold hbound g rfl (.of_known himplied) ⟨t, hmem, rfl, hname⟩
  | none =>
    have himplied := impliedTags_of_new (notMem_tagNames_of_find? hfind)
    cases hi : a.peek .tag with
    | none =>
      apply Attempt.meets_of_run_error (Attempt.run_bind_error (issue_none hi) _)
      refine ⟨rfl, ?_⟩
      rw [himplied]
      exact Nat.lt_succ_of_le (Allocator.peek_eq_none_iff.mp hi)
    | some i =>
      apply Attempt.meets_of_run_ok (Attempt.run_bind_ok (issue_some hi) _)
      apply link_mentioned htold hbound { g with tags := g.tags ++ [_] } rfl
        (.of_issue himplied hi)
      exact ⟨_, List.mem_append_right _ List.mem_cons_self, rfl, rfl⟩

theorem meets_mentions (seen : List String) (htold : TagsTold g.tags a)
    (hbound : List.Forall₂ (TagFor g.tags) g.bound seen.eraseDups) (ms : List Decl.Mention) :
    (g.mentions table ms).Meets a
      (fun g' a' => TagsGrow g.tags g'.tags a a' ms ∧
        List.Forall₂ (TagFor g'.tags) g'.bound (seen ++ ms.map (·.name)).eraseDups)
      (fun r _ => TagsExhausted g.tags a ms r) := by
  induction ms generalizing g a seen with
  | nil =>
    apply Attempt.meets_pure
    refine ⟨.of_known rfl, ?_⟩
    rw [List.map_nil, List.append_nil]
    exact hbound
  | cons m ms ih =>
    apply Attempt.Meets.bind
    · apply (meets_mention htold hbound m).mono
      · exact fun _ _ h => h
      · exact fun r _ hr => hr.append_right ms
    · rintro g' a' ⟨hgrow, hbound'⟩
      apply (ih _ (htold.of_grow hgrow) hbound').mono
      · rintro g'' a'' ⟨hgrow', hbound''⟩
        refine ⟨hgrow.trans hgrow', ?_⟩
        rw [List.map_cons]
        simpa using hbound''
      · exact fun r _ hr => hgrow.exhausted hr

end Tagging

/-- A table with the tags that it mentions, and otherwise as before. -/
structure Table.Bound (tags : List Tag) (t' t : Table) : Prop where
  same : t' = { t with tags := t'.tags }
  tags : List.Forall₂ (TagFor tags) t'.tags (t.mentions.map (·.name)).eraseDups

theorem meets_bindTables {tags : List Tag} {a : Allocator} (htold : TagsTold tags a)
    {ts : List Table} (hts : ∀ t ∈ ts, t.tags = []) :
    (bindTables tags ts).Meets a
      (fun p a' => TagsGrow tags p.2 a a' (ts.flatMap (·.mentions)) ∧
        List.Forall₂ (Table.Bound p.2) p.1 ts)
      (fun r _ => TagsExhausted tags a (ts.flatMap (·.mentions)) r) := by
  induction ts generalizing tags a with
  | nil => exact Attempt.meets_pure ⟨.of_known rfl, .nil⟩
  | cons t ts ih =>
    have hnone : t.tags = [] := hts t List.mem_cons_self
    rw [List.flatMap_cons]
    apply Attempt.Meets.bind
    · apply (Tagging.meets_mentions (g := { tags, bound := t.tags }) [] htold
        (by rw [hnone]; exact .nil) t.mentions).mono
      · exact fun _ _ h => h
      · exact fun r _ hr => hr.append_right _
    · rintro g a₁ ⟨hgrow, hbound⟩
      apply Attempt.Meets.bind
      · apply (ih (htold.of_grow hgrow) fun u hu => hts u (List.mem_cons_of_mem t hu)).mono
        · exact fun _ _ h => h
        · exact fun r _ hr => hgrow.exhausted hr
      · rintro ⟨ts', tags'⟩ a₂ ⟨hgrow', hbound'⟩
        apply Attempt.meets_pure
        refine ⟨hgrow.trans hgrow', .cons ⟨rfl, ?_⟩ hbound'⟩
        exact hbound.imp fun _ _ ht => hgrow'.tagFor ht

end Catalog
