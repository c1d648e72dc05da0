import Catalog.Assembly.Build
import Catalog.Proofs.Mirror.Resolve

/-!
Construction carries out steps: started from an assembly that follows a stage, it ends in one that
follows the stage after the steps, or is rejected for a reason that one of the steps is refused for.
Parts that carry out steps one after another carry out all of them together.
-/
namespace Catalog

/-- An assembly mirrors a stage, and its tables know their groups. -/
structure Assembly.Follows (c : Config) (project : DatabaseInfo) (x : Decl.Stage) (a : Assembly) :
    Prop where
  mirrors : a.Mirrors c project x
  grouped : a.database.Grouped

/-- Where `P` holds, the computation does what the steps do, and `R` holds then. -/
def Carries {α : Type} (c : Config) (project : DatabaseInfo) (P : Decl.Stage → Assembly → Prop)
    (m : Construction α) (steps : List Decl.Step) (R : α → Decl.Stage → Assembly → Prop) : Prop :=
  ∀ x a, a.Follows c project x → P x a → m.Meets a
    (fun v b => x.Linked c steps ∧ b.Follows c project (x.run c steps) ∧ R v (x.run c steps) b)
    (fun r _ => x.Refuses c steps r)

namespace Carries

variable {α β : Type} {c : Config} {project : DatabaseInfo} {P : Decl.Stage → Assembly → Prop}
  {m : Construction α} {f : α → Construction β} {steps steps' : List Decl.Step}
  {R : α → Decl.Stage → Assembly → Prop} {S : β → Decl.Stage → Assembly → Prop}

theorem imp {P' : Decl.Stage → Assembly → Prop} {R' : α → Decl.Stage → Assembly → Prop}
    (h : Carries c project P m steps R) (hP : ∀ x a, P' x a → P x a)
    (hR : ∀ v x a, R v x a → R' v x a) : Carries c project P' m steps R' := by
  intro x a hx hpre
  apply (h x a hx (hP x a hpre)).imp
  rintro v b ⟨hlinked, hb, hv⟩
  exact ⟨hlinked, hb, hR _ _ _ hv⟩

theorem bind (hm : Carries c project P m steps R)
    (hf : ∀ v, Carries c project (R v) (f v) steps' S) :
    Carries c project P (m >>= f) (steps ++ steps') S := by
  intro x a hx hP
  apply Attempt.Meets.bind
  · apply (hm x a hx hP).mono
    · exact fun _ _ h => h
    · intro r _ hr
      exact Decl.Stage.refuses_append.mpr (.inl hr)
  · rintro v b ⟨hlinked, hb, hv⟩
    apply (hf v _ b hb hv).mono
    · rintro w b' ⟨hlinked', hb', hw⟩
      rw [Decl.Stage.run_append, Decl.Stage.linked_append]
      exact ⟨⟨hlinked, hlinked'⟩, hb', hw⟩
    · intro r _ hr
      exact Decl.Stage.refuses_append.mpr (.inr hr)

theorem pure {v : α} (h : ∀ x a, P x a → R v x a) : Carries c project P (pure v) [] R :=
  fun x a hx hP => Attempt.meets_pure ⟨trivial, hx, h x a hP⟩

/-- What is carried out item by item, and holds again after each, is carried out for all. -/
theorem forEach {f : β → Construction α} {steps : β → List Decl.Step} {l : List β}
    (h : ∀ d ∈ l, Carries c project P (f d) (steps d) fun _ => P) :
    Carries c project P (Attempt.forEach f l) (l.flatMap steps) fun _ => P := by
  induction l with
  | nil => exact Carries.pure fun _ _ hP => hP
  | cons d l ih =>
    apply Carries.bind (h d List.mem_cons_self)
    intro _
    exact ih fun d' hd' => h d' (List.mem_cons_of_mem d hd')

end Carries

/-! Insertions. -/

theorem Assembly.meets_insert {δ : Type} {draft : Database → Drafting δ}
    {commit : Database → δ → Database} {a : Assembly} {P : δ → Assembly → Prop}
    {Q : Rejection → Assembly → Prop}
    (h : (draft a.database).Meets a.ids (fun d ids => P d ⟨commit a.database d, ids⟩)
      (fun r ids => Q r ⟨a.database, ids⟩)) : (Assembly.insert draft commit).Meets a P Q := by
  rcases hr : (draft a.database).run a.ids with ⟨r | d, ids⟩
  · exact Attempt.meets_of_run_error (Assembly.insert_error hr) (h.of_run_error hr)
  · exact Attempt.meets_of_run_ok (Assembly.insert_ok hr) (h.of_run_ok hr)

variable {c : Config} {project : DatabaseInfo} {x : Decl.Stage} {a : Assembly} {name : String}
  {id : Id .schema}

theorem draws_checkName (h : a.Mirrors c project x) (hid : a.database.Denotes name id)
    (sort : ChildSort) (own : String) (token : Span) :
    Draws (Assembly.checkName a.database id sort own token) (fun _ => 0)
      (fun _ ns => (∀ d, x.outline.schema? name = some d → own ∉ d.names sort) ∧ ∀ k, ns k = [])
      (fun r => ∀ d, x.outline.schema? name = some d →
        own ∈ d.names sort ∧ r.kind = sort.violation ∧ r.span = token) := by
  obtain ⟨s, d, hs, -, -, hd, hm⟩ := h.schema?_of_denotes hid
  rw [hd]
  apply (draws_checkName_of_schema? hs sort own token).imp
  · rintro - ns ⟨hnew, hns⟩
    refine ⟨?_, hns⟩
    rintro _ ⟨⟩
    rw [← hm.names sort]
    exact hnew
  · rintro r ⟨hold, hkind, hspan⟩ _ ⟨⟩
    rw [← hm.names sort]
    exact ⟨hold, hkind, hspan⟩

/-- An insertion that draws what its record needs is refused where the draft is rejected. -/
theorem meets_insert_of_draws {δ : Type} {draft : Database → Drafting δ}
    {commit : Database → δ → Database} {r : Decl.Item} {R : δ → (Kind → List Nat) → Prop}
    {P : δ → Assembly → Prop} (h : a.Mirrors c project x) (hid : a.database.Denotes name id)
    (hdraws : Draws (draft a.database) r.extent R fun rej =>
      ∀ d, x.outline.schema? name = some d → r.Refused c x.outline d rej)
    (hok : ∀ v ids, a.ids.Drew ids r.extent →
      R v (fun k => List.range' (a.ids.next k) (r.extent k)) → P v ⟨commit a.database v, ids⟩) :
    (Assembly.insert draft commit).Meets a P
      fun rej _ => x.Refuses c [.place name r] rej := by
  obtain ⟨s, d, -, -, -, hd, -⟩ := h.schema?_of_denotes hid
  apply Assembly.meets_insert
  apply (hdraws a.ids).mono
  · rintro v ids ⟨hdrew, hv⟩
    exact hok v ids hdrew hv
  · rintro rej _ ⟨-, hrej | ⟨hkind, k, hk⟩⟩
    · exact .inl ⟨h.sound, .place hd (hrej d hd)⟩
    · exact .inl ⟨h.sound, .exhausted
        (h.not_hasRoom (Decl.Outline.extent_place h.sound.apart hd) hk) hkind⟩

end Catalog
