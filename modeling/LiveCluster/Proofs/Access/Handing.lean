import LiveCluster.Access.Registry

/-!
# What a registry hands out

A registry keeps two tables under the same keys, the classes that were registered and the
accessors that were made. Registering a class changes both, so that no accessor stays of a
class that has been replaced. So which accessor is handed out can be read off what was asked
for before, and only off what was asked for about the same kind: its class is the one that was
registered last, and it is one that was handed out before exactly if no class was registered
since then.

Accessors are told apart by their numbers. `Kept` holds of every registry and says that no
number is there twice. An accessor that was handed out stays where it is until a class is
registered for its kind, and is `Gone` for good from then on.
-/

namespace LiveCluster.Registry

/-- What is asked of a registry. -/
inductive Call where
  | register (rid : ResourceId) (accessorClass : AccessorClass)
  | accessor (rid : ResourceId)

namespace Call

/-- The kind that a call is about, as it is written. -/
def kindText : Call → String
  | .register rid _ => rid.kindText
  | .accessor rid => rid.kindText

/-- Whether a call registers a class for a kind. -/
def registers (kind : String) : Call → Bool
  | .register rid _ => rid.kindText = kind
  | .accessor _ => false

end Call

/-- The registry after a call. -/
def after (r : Registry) : Call → Registry
  | .register rid c => r.register rid c
  | .accessor rid => (r.accessor rid).1

def afterAll (r : Registry) (calls : List Call) : Registry :=
  calls.foldl after r

/-- The accessor that is handed out for a kind, with its number. -/
def handed (r : Registry) (rid : ResourceId) : Nat × Accessor :=
  (r.accessor rid).2.1

variable {r s : Registry} {rid : ResourceId} {kind : String} {n : Nat} {x : Nat × Accessor}
  {call : Call} {calls : List Call}

theorem afterAll_append (r : Registry) (calls calls' : List Call) :
    r.afterAll (calls ++ calls') = (r.afterAll calls).afterAll calls' :=
  List.foldl_append

/-! ## One call -/

theorem classes_after (r : Registry) (call : Call) (kind : String) :
    (r.after call).classes.get? kind =
      match call with
      | .register rid c => if kind = rid.kindText then some c else r.classes.get? kind
      | .accessor _ => r.classes.get? kind := by
  cases call with
  | register rid c => exact Keyed.get?_set ..
  | accessor rid =>
      show (r.accessor rid).1.classes.get? kind = _
      unfold accessor
      split <;> rfl

/-- Whatever is asked for, what is there of other kinds stays. What is asked for is there
afterwards, and nothing is there for which a class was registered. -/
theorem accessors_after (r : Registry) (call : Call) (kind : String) :
    (r.after call).accessors.get? kind =
      if kind = call.kindText then
        match call with
        | .register _ _ => none
        | .accessor rid => some (r.handed rid)
      else r.accessors.get? kind := by
  cases call with
  | register rid c => exact Keyed.get?_erase ..
  | accessor rid =>
      show (r.accessor rid).1.accessors.get? kind =
        if kind = rid.kindText then some (r.handed rid) else r.accessors.get? kind
      unfold handed accessor
      split
      · next found hfound =>
          dsimp only
          split
          · next hkind => rw [hkind, hfound]
          · rfl
      · exact Keyed.get?_set ..

/-- The accessor that is made for a kind if there is none. -/
def fresh (r : Registry) (rid : ResourceId) : Nat × Accessor :=
  (r.made, { rid := rid.kindOnly, accessorClass := r.classOf rid, tailer := some r.tailer })

theorem handed_eq (r : Registry) (rid : ResourceId) :
    r.handed rid = (r.accessors.get? rid.kindText).getD (r.fresh rid) := by
  unfold handed accessor
  split
  · next found hfound => rw [hfound, Option.getD_some]
  · next hnone =>
      rw [hnone, Option.getD_none]
      rfl

/-- As many accessors have been made as before, or one more if there was none. -/
theorem made_accessor (r : Registry) (rid : ResourceId) :
    (r.after (.accessor rid)).made =
      if (r.accessors.get? rid.kindText).isSome then r.made else r.made + 1 := by
  show (r.accessor rid).1.made = _
  unfold accessor
  split
  · next found hfound =>
      rw [hfound]
      rfl
  · next hnone =>
      rw [hnone]
      rfl

theorem le_made_after (r : Registry) (call : Call) : r.made ≤ (r.after call).made := by
  cases call with
  | register rid c => exact Nat.le_refl _
  | accessor rid =>
      rw [made_accessor]
      split
      · exact Nat.le_refl _
      · exact Nat.le_succ _

theorem tailer_after (r : Registry) (call : Call) : (r.after call).tailer = r.tailer := by
  cases call with
  | register rid c => rfl
  | accessor rid =>
      show (r.accessor rid).1.tailer = _
      unfold accessor
      split <;> rfl

theorem handed_there (r : Registry) (rid : ResourceId) :
    (r.after (.accessor rid)).accessors.get? rid.kindText = some (r.handed rid) := by
  rw [accessors_after]
  exact if_pos rfl

/-- What stays is what no class was registered for. -/
theorem stays_after (hx : r.accessors.get? kind = some x) (h : call.registers kind = false) :
    (r.after call).accessors.get? kind = some x := by
  rw [accessors_after]
  split
  · next hkind =>
      subst hkind
      cases call with
      | register rid c => simp [Call.registers, Call.kindText] at h
      | accessor rid =>
          rw [Call.kindText] at hx
          dsimp only
          rw [handed_eq, hx, Option.getD_some]
  · exact hx

/-- What is there after a call has stayed, or it was made by the call. -/
theorem found_after (h : (r.after call).accessors.get? kind = some x) :
    r.accessors.get? kind = some x ∧ call.registers kind = false ∨
      ∃ rid, call = .accessor rid ∧ kind = rid.kindText ∧ x = r.fresh rid ∧
        (r.after call).made = r.made + 1 := by
  rw [accessors_after] at h
  split at h
  · next hkind =>
      cases call with
      | register rid c => cases h
      | accessor rid =>
          rw [Call.kindText] at hkind
          subst hkind
          rw [Option.some.injEq, handed_eq] at h
          cases hfound : r.accessors.get? rid.kindText with
          | some found =>
              rw [hfound, Option.getD_some] at h
              exact .inl ⟨congrArg some h, rfl⟩
          | none =>
              rw [hfound, Option.getD_none] at h
              refine .inr ⟨rid, rfl, rfl, h.symm, ?_⟩
              rw [made_accessor, hfound]
              rfl
  · next hkind =>
      refine .inl ⟨h, ?_⟩
      cases call with
      | register rid c => simpa [Call.registers, Call.kindText, eq_comm] using hkind
      | accessor rid => rfl

/-! ## What holds of every registry -/

/-- No two accessors have the same number, and each is one of the kind that it is kept for and of
the class that is registered for that. -/
structure Kept (r : Registry) : Prop where
  numbered : ∀ kind x, r.accessors.get? kind = some x → x.1 < r.made
  apart : ∀ kind kind' x x', r.accessors.get? kind = some x →
    r.accessors.get? kind' = some x' → x.1 = x'.1 → kind = kind'
  address : ∀ kind x, r.accessors.get? kind = some x →
    x.2.rid.kindText = kind ∧ x.2.rid.ns = "" ∧ x.2.rid.name = ""
  current : ∀ kind x, r.accessors.get? kind = some x →
    x.2.accessorClass = (r.classes.get? kind).getD .generic

theorem kept_new (tailer : TailConfig) : (new tailer).Kept where
  numbered _ _ h := by cases h
  apart _ _ _ _ h := by cases h
  address _ _ h := by cases h
  current _ _ h := by cases h

theorem classes_of_silent (h : call.registers kind = false) :
    (r.after call).classes.get? kind = r.classes.get? kind := by
  rw [classes_after]
  cases call with
  | register rid c =>
      have hkind : kind ≠ rid.kindText := by simpa [Call.registers, eq_comm] using h
      exact if_neg hkind
  | accessor rid => rfl

theorem Kept.after (h : r.Kept) (call : Call) : (r.after call).Kept where
  numbered kind x hx := by
    rcases found_after hx with ⟨hold, -⟩ | ⟨rid, -, -, rfl, hmade⟩
    · exact Nat.lt_of_lt_of_le (h.numbered kind x hold) (r.le_made_after call)
    · rw [hmade]
      exact Nat.lt_succ_self _
  apart kind kind' x x' hx hx' heq := by
    rcases found_after hx with ⟨hold, -⟩ | ⟨rid, rfl, rfl, rfl, -⟩
    · rcases found_after hx' with ⟨hold', -⟩ | ⟨rid', -, -, rfl, -⟩
      · exact h.apart kind kind' x x' hold hold' heq
      · exact absurd heq (Nat.ne_of_lt (h.numbered kind x hold))
    · rcases found_after hx' with ⟨hold', -⟩ | ⟨rid', hcall, rfl, -, -⟩
      · exact absurd heq.symm (Nat.ne_of_lt (h.numbered kind' x' hold'))
      · cases hcall
        rfl
  address kind x hx := by
    rcases found_after hx with ⟨hold, -⟩ | ⟨rid, -, rfl, rfl, -⟩
    · exact h.address kind x hold
    · exact ⟨rfl, rfl, rfl⟩
  current kind x hx := by
    rcases found_after hx with ⟨hold, hsilent⟩ | ⟨rid, rfl, rfl, rfl, -⟩
    · rw [classes_of_silent hsilent]
      exact h.current kind x hold
    · rw [classes_of_silent rfl]
      rfl

theorem Kept.afterAll (h : r.Kept) (calls : List Call) : (r.afterAll calls).Kept := by
  induction calls generalizing r with
  | nil => exact h
  | cons call calls ih => exact ih (h.after call)

/-! ## What becomes of an accessor -/

theorem stays_afterAll (hx : r.accessors.get? kind = some x)
    (h : ∀ call ∈ calls, call.registers kind = false) :
    (r.afterAll calls).accessors.get? kind = some x := by
  induction calls generalizing r with
  | nil => exact hx
  | cons call calls ih =>
      obtain ⟨hcall, hcalls⟩ := List.forall_mem_cons.1 h
      exact ih (stays_after hx hcall) hcalls

theorem classes_afterAll_of_silent (h : ∀ call ∈ calls, call.registers kind = false) :
    (r.afterAll calls).classes.get? kind = r.classes.get? kind := by
  induction calls generalizing r with
  | nil => rfl
  | cons call calls ih =>
      obtain ⟨hcall, hcalls⟩ := List.forall_mem_cons.1 h
      exact (ih hcalls).trans (classes_of_silent hcall)

/-- The accessor of a number was made and is nowhere any more. -/
structure Gone (r : Registry) (n : Nat) : Prop where
  made : n < r.made
  nowhere : ∀ kind x, r.accessors.get? kind = some x → x.1 ≠ n

/-- It never comes back. -/
theorem Gone.after (h : r.Gone n) (call : Call) : (r.after call).Gone n where
  made := Nat.lt_of_lt_of_le h.made (r.le_made_after call)
  nowhere kind x hx := by
    rcases found_after hx with ⟨hold, -⟩ | ⟨rid, -, -, rfl, -⟩
    · exact h.nowhere kind x hold
    · exact Nat.ne_of_gt h.made

theorem Gone.afterAll (h : r.Gone n) (calls : List Call) : (r.afterAll calls).Gone n := by
  induction calls generalizing r with
  | nil => exact h
  | cons call calls ih => exact ih (h.after call)

theorem Kept.gone_of_registers (h : r.Kept) (hx : r.accessors.get? kind = some x)
    (hcall : call.registers kind = true) : (r.after call).Gone x.1 where
  made := Nat.lt_of_lt_of_le (h.numbered kind x hx) (r.le_made_after call)
  nowhere kind' x' hx' heq := by
    rcases found_after hx' with ⟨hold, hsilent⟩ | ⟨rid, rfl, -, -, -⟩
    · rw [h.apart kind' kind x' x hold hx heq, hcall] at hsilent
      cases hsilent
    · cases hcall

theorem Kept.gone_afterAll (h : r.Kept) (hx : r.accessors.get? kind = some x)
    (hcalls : ∃ call ∈ calls, call.registers kind = true) : (r.afterAll calls).Gone x.1 := by
  induction calls generalizing r with
  | nil => simp at hcalls
  | cons call calls ih =>
      cases hcall : call.registers kind with
      | true => exact (h.gone_of_registers hx hcall).afterAll calls
      | false =>
          refine ih (h.after call) (stays_after hx hcall) ?_
          simpa [hcall] using hcalls

/-! ## What is handed out -/

theorem Kept.address_handed (h : r.Kept) (rid : ResourceId) :
    (r.handed rid).2.rid.kindText = rid.kindText ∧ (r.handed rid).2.rid.ns = "" ∧
      (r.handed rid).2.rid.name = "" :=
  (h.after (.accessor rid)).address _ _ (r.handed_there rid)

theorem Kept.class_handed (h : r.Kept) (rid : ResourceId) :
    (r.handed rid).2.accessorClass = (r.classes.get? rid.kindText).getD .generic := by
  rw [(h.after (.accessor rid)).current _ _ (r.handed_there rid), classes_of_silent rfl]

/-- An accessor that was handed out is handed out again exactly for its kind, and if no class was
registered for that since. -/
theorem Kept.handed_again_iff (h : r.Kept) (rid' rid : ResourceId) (calls : List Call)
    (hs : s = (r.after (.accessor rid')).afterAll calls) :
    ((s.handed rid).1 = (r.handed rid').1 ↔
        rid'.kindText = rid.kindText ∧ ∀ call ∈ calls, call.registers rid.kindText = false) ∧
      ((s.handed rid).1 = (r.handed rid').1 → s.handed rid = r.handed rid') := by
  have hkept : (r.after (.accessor rid')).Kept := h.after _
  have hthen := r.handed_there rid'
  have hnow := s.handed_there rid
  by_cases hsilent : ∀ call ∈ calls, call.registers rid'.kindText = false
  · -- the accessor is still there, and only its kind finds it
    have hstays : s.accessors.get? rid'.kindText = some (r.handed rid') :=
      hs ▸ stays_afterAll hthen hsilent
    have hstill : (s.after (.accessor rid)).accessors.get? rid'.kindText = some (r.handed rid') :=
      stays_after hstays rfl
    have hsame : rid'.kindText = rid.kindText → s.handed rid = r.handed rid' := by
      intro hkind
      rw [← hkind, hstill] at hnow
      exact (Option.some.inj hnow).symm
    have hkind : (s.handed rid).1 = (r.handed rid').1 → rid'.kindText = rid.kindText := by
      intro heq
      have hkept' : (s.after (.accessor rid)).Kept := (hs ▸ hkept.afterAll calls).after _
      exact hkept'.apart _ _ _ _ hstill hnow heq.symm
    refine ⟨⟨?_, ?_⟩, fun heq => hsame (hkind heq)⟩
    · intro heq
      exact ⟨hkind heq, hkind heq ▸ hsilent⟩
    · rintro ⟨heq, -⟩
      rw [hsame heq]
  · have hregistered : ∃ call ∈ calls, call.registers rid'.kindText = true := by
      simpa using hsilent
    have hgone : s.Gone (r.handed rid').1 := hs ▸ hkept.gone_afterAll hthen hregistered
    have hne : (s.handed rid).1 ≠ (r.handed rid').1 := (hgone.after _).nowhere _ _ hnow
    refine ⟨iff_of_false hne ?_, fun heq => absurd heq hne⟩
    rintro ⟨hkind, hcalls⟩
    exact hsilent (hkind ▸ hcalls)

/-! ## Other kinds -/

/-- Whether two registries have the same class and the same accessor for a kind, up to numbers. -/
structure Alike (kind : String) (r s : Registry) : Prop where
  classes : r.classes.get? kind = s.classes.get? kind
  accessors : (r.accessors.get? kind).map Prod.snd = (s.accessors.get? kind).map Prod.snd
  tailer : r.tailer = s.tailer

theorem Alike.handed (h : Alike rid.kindText r s) : (r.handed rid).2 = (s.handed rid).2 := by
  have hfresh : (r.fresh rid).2 = (s.fresh rid).2 := by
    rw [fresh, fresh, classOf, classOf, h.classes, h.tailer]
  rw [handed_eq, handed_eq, ← Option.getD_map Prod.snd, ← Option.getD_map Prod.snd, h.accessors,
    hfresh]

/-- Registries stay alike as the same is asked of both. -/
theorem Alike.after (h : Alike kind r s) (call : Call) :
    Alike kind (r.after call) (s.after call) where
  classes := by
    rw [classes_after, classes_after, h.classes]
  accessors := by
    rw [accessors_after, accessors_after]
    split
    · next hkind =>
        cases call with
        | register rid c => rfl
        | accessor rid =>
            rw [Call.kindText] at hkind
            subst hkind
            exact congrArg some h.handed
    · exact h.accessors
  tailer := by
    rw [tailer_after, tailer_after, h.tailer]

/-- What is asked for about another kind makes no difference. -/
theorem alike_after (r : Registry) (h : kind ≠ call.kindText) : Alike kind (r.after call) r where
  classes := by
    rw [classes_after]
    cases call with
    | register rid c => exact if_neg h
    | accessor rid => rfl
  accessors := by
    rw [accessors_after, if_neg h]
  tailer := r.tailer_after call

theorem Alike.trans {t : Registry} (h : Alike kind r s) (h' : Alike kind s t) : Alike kind r t where
  classes := h.classes.trans h'.classes
  accessors := h.accessors.trans h'.accessors
  tailer := h.tailer.trans h'.tailer

theorem Alike.afterAll_filter (h : Alike kind r s) (calls : List Call) :
    Alike kind (r.afterAll calls) (s.afterAll (calls.filter (·.kindText = kind))) := by
  induction calls generalizing r s with
  | nil => exact h
  | cons call calls ih =>
      rw [List.filter_cons]
      split
      · exact ih (h.after call)
      · next hkind =>
          have hother : kind ≠ call.kindText := by simpa [eq_comm] using hkind
          exact ih ((alike_after r hother).trans h)

/-! ## Histories -/

/-- The accessor that a new registry hands out after some calls, with its number. -/
def answer (tailer : TailConfig) (calls : List Call) (rid : ResourceId) : Nat × Accessor :=
  ((new tailer).afterAll calls).handed rid

/-- After any calls, the accessor that a registry hands out is of the class that was last registered
for its kind; if none was, of the kind's own class, or of the general one. It is one that was handed
out before exactly if that was for the same kind, and no class was registered for it since. It does
not depend on what was asked for about other kinds. And its kind is written like the one that was
asked for, and names no object. -/
theorem handed_out (tailer : TailConfig) (calls : List Call) (rid : ResourceId) :
    (∀ before rid' c rest, calls = before ++ .register rid' c :: rest →
        rid'.kindText = rid.kindText → (∀ call ∈ rest, call.registers rid.kindText = false) →
        (answer tailer calls rid).2.accessorClass = c) ∧
      ((∀ call ∈ calls, call.registers rid.kindText = false) →
        (answer tailer calls rid).2.accessorClass =
          (ownClasses.get? rid.kindText).getD .generic) ∧
      (∀ before rid' rest, calls = before ++ .accessor rid' :: rest →
        ((answer tailer calls rid).1 = (answer tailer before rid').1 ↔
          rid'.kindText = rid.kindText ∧ ∀ call ∈ rest, call.registers rid.kindText = false) ∧
        ((answer tailer calls rid).1 = (answer tailer before rid').1 →
          answer tailer calls rid = answer tailer before rid')) ∧
      (∀ calls', calls'.filter (·.kindText = rid.kindText) =
          calls.filter (·.kindText = rid.kindText) →
        (answer tailer calls' rid).2 = (answer tailer calls rid).2) ∧
      (answer tailer calls rid).2.rid.kindText = rid.kindText ∧
      (answer tailer calls rid).2.rid.ns = "" ∧ (answer tailer calls rid).2.rid.name = "" := by
  have hkept : ∀ calls, ((new tailer).afterAll calls).Kept := (kept_new tailer).afterAll
  refine ⟨?_, ?_, ?_, ?_, (hkept calls).address_handed rid⟩
  · rintro before rid' c rest rfl hkind hsilent
    have hclass : ((new tailer).afterAll (before ++ .register rid' c :: rest)).classes.get?
        rid.kindText = some c := by
      rw [afterAll_append]
      refine (classes_afterAll_of_silent hsilent).trans ?_
      rw [classes_after]
      exact if_pos hkind.symm
    rw [answer, (hkept _).class_handed, hclass, Option.getD_some]
  · intro hsilent
    rw [answer, (hkept calls).class_handed, classes_afterAll_of_silent hsilent]
    rfl
  · rintro before rid' rest rfl
    exact (hkept before).handed_again_iff rid' rid rest (afterAll_append _ _ _)
  · intro calls' hsame
    have hself : Alike rid.kindText (new tailer) (new tailer) := ⟨rfl, rfl, rfl⟩
    rw [answer, (hself.afterAll_filter calls').handed, hsame,
      ← (hself.afterAll_filter calls).handed, ← answer]

/-- Jobs are asked for, and then a class is registered for them. -/
def replacing : List Call := [.accessor .jobs, .register .jobs .generic]

/-- A job is asked for, and then a class is registered for pods. -/
def settling : List Call :=
  [.accessor (ResourceId.jobs.withPath "a/x"), .register .pods .generic]

/-- An accessor is replaced once a class is registered for its kind, and not when one is registered
for another kind. -/
theorem handed_out_replaced :
    (answer {} [] .jobs).2.accessorClass = .typed .job ∧
      (answer {} (replacing ++ settling) .jobs).2.accessorClass = .generic ∧
      (answer {} (replacing ++ settling) .jobs).1 ≠ (answer {} [] .jobs).1 ∧
      answer {} (replacing ++ settling) .jobs =
        answer {} replacing (ResourceId.jobs.withPath "a/x") := by
  obtain ⟨hclass, -, hagain, -⟩ := handed_out {} (replacing ++ settling) .jobs
  have hsame := hagain replacing (ResourceId.jobs.withPath "a/x") [.register .pods .generic] rfl
  refine ⟨(handed_out {} [] .jobs).2.1 (by simp), ?_, ?_, ?_⟩
  · exact hclass [.accessor .jobs] .jobs .generic settling rfl rfl (by decide)
  · rw [ne_eq, (hagain [] .jobs _ rfl).1]
    decide
  · exact hsame.2 (hsame.1.2 ⟨rfl, by decide⟩)

end LiveCluster.Registry
