import LiveCluster.Transport.Generator

/-!
# Runs of a generator

A generator that was started is run to its end, or made to stop at one of its
suspensions. `Runs` has all of these: at each item the consumer may go on or close the
generator, and at each wait it may be called off. What the run of a block is follows
from the runs of its body, and each kind of block has one law.
-/

namespace LiveCluster.Transport.Generator

variable {μ α β : Type}

/-- How a run ends. -/
inductive Exit where
  | returned
  | raised (fault : Fault)
  /-- The consumer closed the generator. -/
  | closed
  /-- The task was called off in which the generator ran. -/
  | cancelled

namespace Exit

/-- The failure that a consumer meets. -/
def failure? : Exit → Option Fault
  | .raised fault => some fault
  | _ => none

/-- The end of a stream, where there may be a failure. -/
def ofStream : Option Fault → Exit
  | none => .returned
  | some fault => .raised fault

/-- The ending in which another fault was raised. -/
def translate (f : Fault → Fault) : Exit → Exit
  | .raised fault => .raised (f fault)
  | ending => ending

/-- Whether a run that handed out `count` items can end like this for a consumer that takes
everything, or closes the generator after so many items, of which it takes one at least. Nobody
calls it off. -/
def Suits (take : Option Nat) (count : Nat) : Exit → Prop
  | .returned | .raised _ => ∀ n, take = some n → count < max n 1
  | .closed => ∃ n, take = some n ∧ count = max n 1
  | .cancelled => False

/-- A consumer that takes everything goes on until the generator ends. -/
theorem Suits.of_none {count : Nat} {ending : Exit} (h : ending.Suits none count) :
    ending = .returned ∨ ∃ fault, ending = .raised fault := by
  cases ending with
  | returned => exact .inl rfl
  | raised fault => exact .inr ⟨fault, rfl⟩
  | closed =>
      obtain ⟨n, hn, -⟩ := h
      cases hn
  | cancelled => cases h

theorem Suits.succ_none {count : Nat} {ending : Exit} (h : ending.Suits none count) :
    ending.Suits none (count + 1) := by
  obtain rfl | ⟨fault, rfl⟩ := h.of_none
  · intro n hn
    cases hn
  · intro n hn
    cases hn

theorem Suits.succ {n count : Nat} {ending : Exit} (h : ending.Suits (some (n - 1)) count)
    (hn : 1 < n) : ending.Suits (some n) (count + 1) := by
  cases ending with
  | returned | raised _ =>
      rintro _ ⟨⟩
      have := h _ rfl
      omega
  | closed =>
      obtain ⟨_, ⟨⟩, hcount⟩ := h
      exact ⟨n, rfl, by omega⟩
  | cancelled => cases h

end Exit

/-- The runs of a generator: what it does, what it hands out, how it ends. -/
inductive Runs : Generator μ α → List μ → List α → Exit → Prop
  | returned : Runs .returned [] [] .returned
  | raised {fault : Fault} : Runs (.raised fault) [] [] (.raised fault)
  | marked {mark : μ} {rest : Generator μ α} {marks : List μ} {items : List α} {ending : Exit} :
      Runs rest marks items ending → Runs (.marked mark rest) (mark :: marks) items ending
  | resumed {rest : Generator μ α} {left marks : List μ} {items : List α} {ending : Exit} :
      Runs rest marks items ending → Runs (.waiting rest left) marks items ending
  | cancelled {rest : Generator μ α} {left : List μ} :
      Runs (.waiting rest left) left [] .cancelled
  | wanted {item : α} {rest : Generator μ α} {left marks : List μ} {items : List α}
      {ending : Exit} :
      Runs rest marks items ending → Runs (.yielded item rest left) marks (item :: items) ending
  | closed {item : α} {rest : Generator μ α} {left : List μ} :
      Runs (.yielded item rest left) left [item] .closed

/-- A consumer that takes everything, or closes the generator after so many items, runs it. -/
theorem runs_run (g : Generator μ α) (take : Option Nat) :
    ∃ ending, Runs g (g.run take).1 (g.run take).2.1 ending ∧
      (g.run take).2.2 = ending.failure? ∧ ending.Suits take (g.run take).2.1.length := by
  induction g generalizing take with
  | returned => exact ⟨.returned, .returned, rfl, fun n _ => Nat.le_max_right n 1⟩
  | raised fault => exact ⟨.raised fault, .raised, rfl, fun n _ => Nat.le_max_right n 1⟩
  | marked mark rest ih =>
      obtain ⟨ending, hruns, hends⟩ := ih take
      exact ⟨ending, .marked hruns, hends⟩
  | waiting rest left ih =>
      obtain ⟨ending, hruns, hends⟩ := ih take
      exact ⟨ending, .resumed hruns, hends⟩
  | yielded item rest left ih =>
      cases take with
      | none =>
          obtain ⟨ending, hruns, hfailure, hsuits⟩ := ih none
          exact ⟨ending, .wanted hruns, hfailure, hsuits.succ_none⟩
      | some n =>
          rw [run]
          split
          · next hlast => exact ⟨.closed, .closed, rfl, n, rfl, (Nat.max_eq_right hlast).symm⟩
          · next hmore =>
              obtain ⟨ending, hruns, hfailure, hsuits⟩ := ih (some (n - 1))
              exact ⟨ending, .wanted hruns, hfailure, hsuits.succ (Nat.lt_of_not_le hmore)⟩

/-- A block does what its body does, and then once what it does at its end. -/
theorem Runs.of_ensuring {g : Generator μ α} {last : μ} {marks : List μ} {items : List α}
    {ending : Exit} (h : Runs (g.ensuring last) marks items ending) :
    ∃ body, marks = body ++ [last] ∧ Runs g body items ending := by
  induction g generalizing marks items with
  | returned =>
      rw [ensuring] at h
      cases h with
      | marked h =>
          cases h
          exact ⟨[], rfl, .returned⟩
  | raised fault =>
      rw [ensuring] at h
      cases h with
      | marked h =>
          cases h
          exact ⟨[], rfl, .raised⟩
  | marked mark rest ih =>
      rw [ensuring] at h
      cases h with
      | marked h =>
          obtain ⟨body, rfl, hbody⟩ := ih h
          exact ⟨mark :: body, rfl, .marked hbody⟩
  | waiting rest left ih =>
      rw [ensuring] at h
      cases h with
      | resumed h =>
          obtain ⟨body, hmarks, hbody⟩ := ih h
          exact ⟨body, hmarks, .resumed hbody⟩
      | cancelled => exact ⟨left, rfl, .cancelled⟩
  | yielded item rest left ih =>
      rw [ensuring] at h
      cases h with
      | wanted h =>
          obtain ⟨body, hmarks, hbody⟩ := ih h
          exact ⟨body, hmarks, .wanted hbody⟩
      | closed => exact ⟨left, rfl, .closed⟩

/-- A block that raises other faults differs from its body in these only. -/
theorem Runs.of_translating {g : Generator μ α} {f : Fault → Fault} {marks : List μ}
    {items : List α} {ending : Exit} (h : Runs (g.translating f) marks items ending) :
    ∃ inner, ending = inner.translate f ∧ Runs g marks items inner := by
  induction g generalizing marks items with
  | returned =>
      cases h
      exact ⟨.returned, rfl, .returned⟩
  | raised fault =>
      cases h
      exact ⟨.raised fault, rfl, .raised⟩
  | marked mark rest ih =>
      rw [translating] at h
      cases h with
      | marked h =>
          obtain ⟨inner, hending, hinner⟩ := ih h
          exact ⟨inner, hending, .marked hinner⟩
  | waiting rest left ih =>
      rw [translating] at h
      cases h with
      | resumed h =>
          obtain ⟨inner, hending, hinner⟩ := ih h
          exact ⟨inner, hending, .resumed hinner⟩
      | cancelled => exact ⟨.cancelled, rfl, .cancelled⟩
  | yielded item rest left ih =>
      rw [translating] at h
      cases h with
      | wanted h =>
          obtain ⟨inner, hending, hinner⟩ := ih h
          exact ⟨inner, hending, .wanted hinner⟩
      | closed => exact ⟨.closed, rfl, .closed⟩

/-! ## Streams -/

/-- What a stream comes to that is read to its end: what was read of its items up to the first that
cannot be read, and how it ends. -/
def readThrough (read : α → Except Fault β) (failure : Option Fault) :
    List α → List β × Exit
  | [] => ([], .ofStream failure)
  | item :: rest => match read item with
    | .ok b => (b :: (readThrough read failure rest).1, (readThrough read failure rest).2)
    | .error fault => ([], .raised fault)

/-- Whether a run was made to stop before its end, by closing which takes an item, or by calling
off. -/
def Stopped (items : List α) : Exit → Prop
  | .closed => items ≠ []
  | .cancelled => True
  | _ => False

/-- There is no fault to raise another in place of. -/
theorem Stopped.translate_eq {items : List α} {ending : Exit} {f : Fault → Fault}
    (h : Stopped items ending) : ending.translate f = ending := by
  cases ending with
  | returned | raised _ => cases h
  | closed | cancelled => rfl

/-- A stream is handed out from its beginning: all of it with its end, or as much as the consumer
took before the run was made to stop. -/
theorem Runs.of_each {read : α → Except Fault β} {failure : Option Fault} {stream : List α}
    {marks : List μ} {items : List β} {ending : Exit}
    (h : Runs (each read failure stream : Generator μ β) marks items ending) :
    marks = [] ∧ (items = (readThrough read failure stream).1 ∧
        ending = (readThrough read failure stream).2 ∨
      items <+: (readThrough read failure stream).1 ∧ Stopped items ending) := by
  induction stream generalizing marks items with
  | nil =>
      rw [each] at h
      cases h with
      | cancelled => exact ⟨rfl, .inr ⟨List.prefix_refl _, trivial⟩⟩
      | resumed h =>
          cases failure with
          | none | some fault =>
              cases h
              exact ⟨rfl, .inl ⟨rfl, rfl⟩⟩
  | cons item rest ih =>
      rw [each] at h
      cases hread : read item with
      | error fault =>
          rw [hread] at h
          rw [readThrough, hread]
          cases h with
          | cancelled => exact ⟨rfl, .inr ⟨List.prefix_refl _, trivial⟩⟩
          | resumed h =>
              cases h
              exact ⟨rfl, .inl ⟨rfl, rfl⟩⟩
      | ok b =>
          rw [hread] at h
          rw [readThrough, hread]
          cases h with
          | cancelled => exact ⟨rfl, .inr ⟨List.nil_prefix, trivial⟩⟩
          | resumed h =>
              cases h with
              | closed => exact ⟨rfl, .inr ⟨by simp, by simp [Stopped]⟩⟩
              | @wanted _ _ _ _ items _ h =>
                  obtain ⟨hmarks, hend | ⟨hfront, hstopped⟩⟩ := ih h
                  · exact ⟨hmarks, .inl ⟨by rw [hend.1], hend.2⟩⟩
                  · refine ⟨hmarks, .inr ⟨List.cons_prefix_cons.2 ⟨rfl, hfront⟩, ?_⟩⟩
                    cases ending with
                    | returned | raised _ => cases hstopped
                    | closed => simp [Stopped]
                    | cancelled => trivial

end LiveCluster.Transport.Generator
