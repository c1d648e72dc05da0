import Catalog.Proofs.Aliases.Echoes
import Catalog.Proofs.Mirror.Build

/-!
Retracing a construction: what carries out steps keeps to a stage, so where two constructions come
to stand tells whether the next part of one echoes that of the other. Parts that retrace each other
one after another do so together.
-/
namespace Catalog

namespace Decl

def Bundle.infos (b : Bundle) : List SchemaInfo :=
  b.schemas.map (·.toSchemaInfo)

/-- Of the schemas of a bundle, all but the last ones are known. -/
def Bundle.Lacks (b : Bundle) (ss : List Schema) (known : List SchemaInfo) : Prop :=
  known ++ ss.map (·.toSchemaInfo) = b.infos

/-- The endpoints of refs in some schemas and of those outside of schemas. -/
def Bundle.endpointsFrom (b : Bundle) (ss : List Schema) : List Endpoint :=
  (ss.flatMap (·.refs) ++ b.refs).flatMap (·.endpoints)

namespace Stage

def infos (x : Stage) : List SchemaInfo :=
  x.outline.map (·.toSchemaInfo)

/-- Of the endpoints of a bundle, those that are left are still to be numbered. -/
def Awaits (b : Bundle) (left : List Endpoint) (x : Stage) : Prop :=
  ∃ done, b.endpoints = done ++ left ∧ x.outline.extent .endpoint = done.length

/-- Schemas are known as `I` says, and the endpoints that are left still to be numbered. -/
def At (I : List SchemaInfo → Prop) (b : Bundle) (left : List Endpoint) (x : Stage) : Prop :=
  I x.infos ∧ x.Awaits b left

variable {c : Config} {x y : Stage} {b : Bundle} {es left : List Endpoint} {name : String} {r : Item}

theorem Awaits.numbered (h : x.Awaits b (es ++ left))
    (hy : y.outline.extent .endpoint = x.outline.extent .endpoint + es.length) :
    y.Awaits b left := by
  obtain ⟨done, heq, hlen⟩ := h
  refine ⟨done ++ es, ?_, ?_⟩
  · rw [heq, List.append_assoc]
  · rw [hy, hlen, List.length_append]

theorem Awaits.of_extent_eq (h : x.Awaits b left)
    (hy : y.outline.extent .endpoint = x.outline.extent .endpoint) : y.Awaits b left := by
  obtain ⟨done, heq, hlen⟩ := h
  exact ⟨done, heq, hy.trans hlen⟩

theorem infos_place (x : Stage) (name : String) (r : Item) :
    (x.step c (.place name r)).infos = x.infos :=
  x.outline.infos_place name r

theorem infos_implyTags (x : Stage) : (x.step c .implyTags).infos = x.infos := by
  simp only [infos, step, List.map_map]
  rfl

theorem infos_declare (x : Stage) (d : Schema) :
    (x.step c (.declare d)).infos = x.infos ++ [d.toSchemaInfo] :=
  List.map_append

theorem extent_declare (x : Stage) (d : Schema) :
    (x.step c (.declare d)).outline.extent .endpoint = x.outline.extent .endpoint := by
  simp only [step, Outline.extent_concat, Schema.extent_header]
  rfl

theorem extent_implyTags (x : Stage) :
    (x.step c .implyTags).outline.extent .endpoint = x.outline.extent .endpoint :=
  x.outline.extent_withImpliedTags .endpoint

theorem extent_arrive (x : Stage) (name : String) :
    (x.step c (.arrive name)).outline.extent .endpoint = x.outline.extent .endpoint := by
  simp only [step, Outline.arrive]
  split
  · rfl
  · exact x.extent_declare (c := c) (c.impliedSchema name)

theorem infos_subset_arrive (x : Stage) (name : String) :
    x.infos ⊆ (x.step c (.arrive name)).infos := by
  simp only [step, Outline.arrive]
  split
  · exact List.Subset.refl _
  · rw [infos, infos, List.map_append]
    exact List.subset_append_left _ _

end Stage

end Decl

variable {c : Config} {project : DatabaseInfo} {σ : Statement} {b b' : Decl.Bundle}

/-- Of what is left to be numbered, the next endpoints get the numbers at which they are told. -/
theorem Statement.Tells.next {x : Decl.Stage} {a : Assembly} {es left : List Decl.Endpoint}
    (hσ : σ.Tells c.idBase.toNat b.endpoints) (h : a.Mirrors c project x)
    (hx : x.Awaits b (es ++ left)) : σ.Tells (a.ids.next .endpoint) es := by
  obtain ⟨done, heq, hlen⟩ := hx
  intro k e he i hi
  apply hσ (done.length + k) e
  · have hlt := (List.getElem?_eq_some_iff.mp he).1
    rw [heq, List.getElem?_append_right (Nat.le_add_right _ _), Nat.add_sub_cancel_left,
      List.getElem?_append_left hlt, he]
  · rw [hi, h.next_eq, hlen]
    omega

/-- Where the schemas that are known are declared ones, or all declared ones are known, names of one
schema are never those of two. -/
theorem Assembly.Mirrors.clear {x : Decl.Stage} {a : Assembly} (h : a.Mirrors c project x)
    (apart : b.schemas.Pairwise Decl.Schema.Apart)
    (hx : x.infos ⊆ b.infos ∨ b.infos ⊆ x.infos) : a.database.Clear b := by
  -- A schema that answers to one name of a declared schema is that one, and answers to the other.
  have hsame : ∀ s ∈ x.outline, ∀ d ∈ b.schemas, ∀ n, s.isNamed n = true → d.isNamed n = true →
      s.toSchemaInfo = d.toSchemaInfo := by
    intro s hs d hd n hsn hdn
    rcases hx with hx | hx
    · obtain ⟨d', hd', hinfo⟩ := List.mem_map.mp (hx (List.mem_map_of_mem hs))
      by_contra hne
      have hdd : d' ≠ d := by
        rintro rfl
        exact hne hinfo.symm
      exact apart.forall hd' hd hdd n ⟨hinfo ▸ hsn, hdn⟩
    · obtain ⟨s', hs', hinfo⟩ := List.mem_map.mp (hx (List.mem_map_of_mem hd))
      rw [h.sound.eq_of_isNamed hs hs' hsn (hinfo ▸ hdn)]
      exact hinfo
  intro o o' ho s hs
  cases ho with
  | same o => rfl
  | @names d n n' hd hn hn' =>
    obtain ⟨s', hs', hm⟩ := h.exists_decl hs
    simp only [Option.getD_some, hm.isNamed]
    rw [Bool.eq_iff_iff]
    constructor
    · intro hsn
      rw [hsame s' hs' d hd n hsn hn]
      exact hn'
    · intro hsn
      rw [hsame s' hs' d hd n' hsn hn']
      exact hn

/-- Where `P` holds, two constructions come to one verdict, and to states that differ in what
endpoints say; `Q` holds of the results and of the stage that is followed then. -/
def Retraces {α β : Type} (c : Config) (project : DatabaseInfo) (σ : Statement)
    (P : Decl.Stage → Assembly → Prop) (m : Construction α) (m' : Construction β)
    (Q : α → β → Decl.Stage → Assembly → Prop) : Prop :=
  ∀ x a, a.Follows c project x → P x a →
    SameVerdict (fun p q => q.2 = p.2.restate σ ∧
        ∃ y, p.2.Follows c project y ∧ Q p.1 q.1 y p.2)
      (m.outcome a) (m'.outcome (a.restate σ))

namespace Retraces

variable {α β γ δ : Type} {P P' : Decl.Stage → Assembly → Prop} {m : Construction α}
  {m' : Construction β} {f : α → Construction γ} {f' : β → Construction δ}
  {Q Q' : α → β → Decl.Stage → Assembly → Prop} {R : γ → δ → Decl.Stage → Assembly → Prop}

theorem imp (h : Retraces c project σ P m m' Q) (hP : ∀ x a, P' x a → P x a)
    (hQ : ∀ v w x a, Q v w x a → Q' v w x a) : Retraces c project σ P' m m' Q' := by
  intro x a hx hpre
  apply (h x a hx (hP x a hpre)).imp
  rintro p q ⟨hq, y, hy, hpost⟩
  exact ⟨hq, y, hy, hQ _ _ _ _ hpost⟩

theorem bind (hm : Retraces c project σ P m m' Q)
    (hf : ∀ v w, Retraces c project σ (Q v w) (f v) (f' w) R) :
    Retraces c project σ P (m >>= f) (m' >>= f') R := by
  intro x a hx hpre
  rw [Attempt.outcome_bind, Attempt.outcome_bind]
  apply (hm x a hx hpre).bind
  rintro ⟨v, t⟩ ⟨w, _⟩ ⟨rfl, y, hy, hpost⟩
  exact hf v w y t hy hpost

/-- Going on with the same result. -/
theorem bind_eq {m m' : Construction α} {f f' : α → Construction γ}
    {Q : α → Decl.Stage → Assembly → Prop} {R : γ → γ → Decl.Stage → Assembly → Prop}
    (hm : Retraces c project σ P m m' fun v w x a => v = w ∧ Q v x a)
    (hf : ∀ v, Retraces c project σ (Q v) (f v) (f' v) R) :
    Retraces c project σ P (m >>= f) (m' >>= f') R := by
  apply hm.bind
  rintro v w x a hx ⟨rfl, hpost⟩
  exact hf v x a hx hpost

theorem pure {v : α} {w : β} (h : ∀ x a, P x a → Q v w x a) :
    Retraces c project σ P (pure v) (pure w) Q :=
  fun x a hx hpre => .ok ⟨rfl, x, hx, h x a hpre⟩

/-- Item by item; what holds in between depends on the items that are left. -/
theorem forEach {T : γ → δ → Prop} {l : List γ} {l' : List δ} {f : γ → Construction α}
    {f' : δ → Construction β} {P : List δ → Decl.Stage → Assembly → Prop}
    (hl : List.Forall₂ T l l')
    (h : ∀ d d' left, T d d' →
      Retraces c project σ (P (d' :: left)) (f d) (f' d') fun _ _ => P left) :
    Retraces c project σ (P l') (Attempt.forEach f l) (Attempt.forEach f' l') fun _ _ => P [] := by
  induction hl with
  | nil => exact Retraces.pure fun _ _ hpre => hpre
  | cons hd _ ih =>
    apply Retraces.bind (h _ _ _ hd)
    intro _ _
    exact ih

/-- What each item keeps up is kept up by all. -/
theorem forEach_same {T : γ → δ → Prop} {l : List γ} {l' : List δ} {f : γ → Construction α}
    {f' : δ → Construction β} (hl : List.Forall₂ T l l')
    (h : ∀ d d', T d d' → Retraces c project σ P (f d) (f' d') fun _ _ => P) :
    Retraces c project σ P (Attempt.forEach f l) (Attempt.forEach f' l') fun _ _ => P :=
  Retraces.forEach (P := fun _ => P) hl fun d d' _ => h d d'

end Retraces

/-- What carries out steps is retraced by what echoes it. -/
theorem Carries.retraces {α β : Type} {P : Decl.Stage → Assembly → Prop} {K L : Decl.Stage → Prop}
    {m : Construction α} {m' : Construction β} {steps : List Decl.Step}
    {R : α → Decl.Stage → Assembly → Prop} {S : α → β → Prop}
    (hm : Carries c project P m steps R)
    (hecho : ∀ x a, a.Follows c project x → P x a → K x → Echoes σ S m m' a)
    (hK : ∀ x a, a.Follows c project x → P x a → K x → L (x.run c steps)) :
    Retraces c project σ (fun x a => P x a ∧ K x) m m' fun v w x a => S v w ∧ R v x a ∧ L x := by
  rintro x a hx ⟨hP, hKx⟩
  have hmeets := hm x a hx hP
  have hverdict := hecho x a hx hP hKx
  unfold Echoes at hverdict
  generalize m'.outcome (a.restate σ) = z at hverdict ⊢
  unfold Attempt.outcome at hverdict ⊢
  rcases hrun : m.run a with ⟨r | v, t⟩
  · rw [hrun] at hverdict
    cases hverdict with
    | error hkind hspan => exact .error hkind hspan
  · rw [hrun] at hverdict
    cases hverdict with
    | ok h =>
      obtain ⟨-, hfollows, hR⟩ := hmeets.of_run_ok hrun
      exact .ok ⟨h.2, _, hfollows, h.1, hR, hK x a hx hP hKx⟩

/-- The same where results do not matter. -/
theorem Carries.retraces_const {α β : Type} {P R : Decl.Stage → Assembly → Prop}
    {K L : Decl.Stage → Prop} {m : Construction α} {m' : Construction β} {steps : List Decl.Step}
    {S : α → β → Prop} (hm : Carries c project P m steps fun _ => R)
    (hecho : ∀ x a, a.Follows c project x → P x a → K x → Echoes σ S m m' a)
    (hK : ∀ x a, a.Follows c project x → P x a → K x → L (x.run c steps)) :
    Retraces c project σ (fun x a => P x a ∧ K x) m m' fun _ _ x a => R x a ∧ L x :=
  (hm.retraces hecho hK).imp (fun _ _ h => h) fun _ _ _ _ h => h.2

end Catalog
