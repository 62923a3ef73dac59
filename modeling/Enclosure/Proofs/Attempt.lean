import Mathlib.Tactic.Common
import Enclosure.Attempt

/-!
# Runs of attempts

What an attempt did is read off its parts: a sequence that succeeded is a first part that succeeded and
a second that succeeded from where the first one left off.
-/

namespace Enclosure.Attempt

variable {σ ε ε' α β : Type}

theorem on_pure (a : α) (s : σ) : (pure a : Attempt σ ε α).on s = (.ok a, s) := rfl

theorem on_eq {m : Attempt σ ε α} {s : σ} {answer : Except ε α} (h : (m.on s).1 = answer) :
    m.on s = (answer, (m.on s).2) :=
  Prod.ext h rfl

theorem on_bind (m : Attempt σ ε α) (f : α → Attempt σ ε β) (s : σ) :
    (m >>= f).on s = match m.on s with
      | (.ok a, s) => (f a).on s
      | (.error e, s) => (.error e, s) := by
  show (ExceptT.bind m f : Attempt σ ε β) s = _
  simp only [ExceptT.bind, ExceptT.mk, on]
  show (ExceptT.bindCont f (m s).1 : StateM σ (Except ε β)) (m s).2 = _
  rcases m s with ⟨_ | _, _⟩ <;> rfl

theorem on_mapError (f : ε → ε') (m : Attempt σ ε α) (s : σ) :
    (m.mapError f).on s = ((m.on s).1.mapError f, (m.on s).2) := by
  simp only [mapError, of, on]
  rcases m s with ⟨_ | _, _⟩ <;> rfl

theorem on_orFail_some (e : ε) (a : α) (s : σ) : (orFail e (some a)).on s = (.ok a, s) := rfl

theorem on_orFail_none (e : ε) (s : σ) : (orFail e (none : Option α)).on s = (.error e, s) := rfl

theorem bind_on {m : Attempt σ ε α} {f : α → Attempt σ ε β} {s s₁ : σ} {a : α}
    (h : m.on s = (.ok a, s₁)) : (m >>= f).on s = (f a).on s₁ := by
  rw [on_bind, h]

theorem bind_ok {m : Attempt σ ε α} {f : α → Attempt σ ε β} {s s' : σ} {b : β}
    (h : (m >>= f).on s = (.ok b, s')) :
    ∃ a s₁, m.on s = (.ok a, s₁) ∧ (f a).on s₁ = (.ok b, s') := by
  rw [on_bind] at h
  split at h
  · exact ⟨_, _, ‹_›, h⟩
  · cases h

theorem mapError_ok {f : ε → ε'} {m : Attempt σ ε α} {s s' : σ} {a : α}
    (h : (m.mapError f).on s = (.ok a, s')) : m.on s = (.ok a, s') := by
  rw [on_mapError] at h
  rcases hm : m.on s with ⟨_ | _, _⟩ <;> rw [hm] at h <;> cases h
  rfl

theorem orFail_ok {e : ε} {a? : Option α} {a : α} {s s' : σ}
    (h : (orFail e a?).on s = (.ok a, s')) : a? = some a ∧ s' = s := by
  rcases a? with _ | _ <;> cases h
  exact ⟨rfl, rfl⟩

theorem read_ok {f : σ → α} {a : α} {s s' : σ}
    (h : (read f : Attempt σ ε α).on s = (.ok a, s')) : f s = a ∧ s' = s := by
  cases h
  exact ⟨rfl, rfl⟩

theorem pure_ok {a b : α} {s s' : σ} (h : (pure a : Attempt σ ε α).on s = (.ok b, s')) :
    a = b ∧ s' = s := by
  cases h
  exact ⟨rfl, rfl⟩

theorem each_append (f : β → Attempt σ ε Unit) :
    ∀ bs more : List β, each f (bs ++ more) = each f bs >>= fun _ => each f more
  | [], _ => rfl
  | b :: rest, more => by
    rw [List.cons_append, each, each, each_append f rest, bind_assoc]

theorem each_map (f : α → Attempt σ ε Unit) (g : β → α) :
    ∀ items : List β, each f (items.map g) = each (fun b => f (g b)) items
  | [] => rfl
  | b :: rest => by rw [List.map_cons, each, each, each_map f g rest]

theorem each_singleton (f : α → Attempt σ ε Unit) (a : α) : each f [a] = f a :=
  bind_pure_unit

theorem each_ok_of_mem {f : α → Attempt σ ε Unit} {items : List α} {s s' : σ} {a : α}
    (h : (each f items).on s = (.ok (), s')) (ha : a ∈ items) :
    ∃ s₁ s₂, (f a).on s₁ = (.ok (), s₂) := by
  obtain ⟨before, after, rfl⟩ := List.append_of_mem ha
  rw [each_append] at h
  obtain ⟨_, s₁, -, h⟩ := bind_ok h
  obtain ⟨_, s₂, ha, -⟩ := bind_ok h
  exact ⟨s₁, s₂, ha⟩

/-! ## What attempts keep -/

/-- An attempt that keeps a property of the state, whatever its end, and whose results have another. -/
def Keeps (I : σ → Prop) (m : Attempt σ ε α) (P : α → Prop) : Prop :=
  ∀ s, I s → I (m.on s).2 ∧ ∀ a, (m.on s).1 = .ok a → P a

namespace Keeps

variable {I : σ → Prop} {m : Attempt σ ε α} {f : α → Attempt σ ε β} {P : α → Prop} {Q : β → Prop}

theorem pure {a : α} (ha : P a) : Keeps I (Pure.pure a : Attempt σ ε α) P := by
  refine fun s hs => ⟨hs, ?_⟩
  rintro _ ⟨⟩
  exact ha

theorem fail (e : ε) : Keeps I (fail e : Attempt σ ε α) P := fun _ hs => ⟨hs, nofun⟩

theorem read {f : σ → α} (h : ∀ s, I s → P (f s)) : Keeps I (read f : Attempt σ ε α) P := by
  refine fun s hs => ⟨hs, ?_⟩
  rintro _ ⟨⟩
  exact h s hs

theorem mono {P' : α → Prop} (h : Keeps I m P) (hP : ∀ a, P a → P' a) : Keeps I m P' :=
  fun s hs => ⟨(h s hs).1, fun a ha => hP a ((h s hs).2 a ha)⟩

theorem bind (h : Keeps I m P) (hf : ∀ a, P a → Keeps I (f a) Q) : Keeps I (m >>= f) Q := by
  intro s hs
  obtain ⟨hs₁, ha⟩ := h s hs
  rw [on_bind]
  generalize m.on s = r at hs₁ ha
  obtain ⟨_ | a, s₁⟩ := r
  · exact ⟨hs₁, nofun⟩
  · exact hf a (ha a rfl) s₁ hs₁

end Keeps

/-! ## How attempts fail -/

/-- Every error that an attempt may end with has a property. -/
def Errs (P : ε → Prop) (m : Attempt σ ε α) : Prop := ∀ s e, (m.on s).1 = .error e → P e

namespace Errs

variable {P : ε → Prop} {m : Attempt σ ε α} {f : α → Attempt σ ε β}

theorem pure (a : α) : Errs P (Pure.pure a : Attempt σ ε α) := fun _ _ h => nomatch h

theorem fail {e : ε} (h : P e) : Errs P (fail e : Attempt σ ε α) := by
  rintro s _ ⟨⟩
  exact h

theorem bind (h : Errs P m) (hf : ∀ a, Errs P (f a)) : Errs P (m >>= f) := by
  intro s e he
  have hm := h s
  rw [on_bind] at he
  generalize m.on s = r at hm he
  obtain ⟨e' | a, s₁⟩ := r
  · exact hm e (by simpa using he)
  · exact hf a s₁ e he

theorem mapError {m : Attempt σ ε' α} {g : ε' → ε} (h : ∀ e, P (g e)) : Errs P (m.mapError g) := by
  intro s e he
  rw [on_mapError] at he
  generalize m.on s = r at he
  obtain ⟨e' | a, s₁⟩ := r <;> cases he
  exact h e'

theorem orFail {e : ε} (h : P e) (a? : Option α) :
    Errs P (Attempt.orFail e a? : Attempt σ ε α) := by
  cases a? with
  | none => exact fail h
  | some a => exact pure a

theorem each {g : β → Attempt σ ε Unit} (h : ∀ b, Errs P (g b)) : ∀ bs, Errs P (Attempt.each g bs)
  | [] => pure ()
  | b :: rest => bind (h b) fun _ => each h rest

end Errs

/-! ## Attempts that succeed -/

/-- An attempt that succeeds in every state with a property, keeps it, and has results with another. -/
def Succeeds (I : σ → Prop) (m : Attempt σ ε α) (P : α → Prop) : Prop :=
  ∀ s, I s → ∃ a s', m.on s = (.ok a, s') ∧ P a ∧ I s'

namespace Succeeds

variable {I : σ → Prop} {m : Attempt σ ε α} {f : α → Attempt σ ε β} {P : α → Prop} {Q : β → Prop}

theorem pure {a : α} (ha : P a) : Succeeds I (Pure.pure a : Attempt σ ε α) P :=
  fun s hs => ⟨a, s, rfl, ha, hs⟩

theorem bind (h : Succeeds I m P) (hf : ∀ a, P a → Succeeds I (f a) Q) :
    Succeeds I (m >>= f) Q := by
  intro s hs
  obtain ⟨a, s₁, hm, ha, hs₁⟩ := h s hs
  obtain ⟨b, s₂, hb, hq, hs₂⟩ := hf a ha s₁ hs₁
  exact ⟨b, s₂, (bind_on hm).trans hb, hq, hs₂⟩

theorem mapError {g : ε → ε'} (h : Succeeds I m P) : Succeeds I (m.mapError g) P := by
  intro s hs
  obtain ⟨a, s₁, hm, ha, hs₁⟩ := h s hs
  exact ⟨a, s₁, by rw [on_mapError, hm]; rfl, ha, hs₁⟩

theorem mono {P' : α → Prop} (h : Succeeds I m P) (hP : ∀ a, P a → P' a) : Succeeds I m P' := by
  intro s hs
  obtain ⟨a, s₁, hm, ha, hs₁⟩ := h s hs
  exact ⟨a, s₁, hm, hP a ha, hs₁⟩

theorem orFail {e : ε} {a? : Option α} {a : α} (h : a? = some a) (ha : P a) :
    Succeeds I (Attempt.orFail e a?) P := h ▸ fun s hs => ⟨a, s, rfl, ha, hs⟩

theorem each {g : β → Attempt σ ε Unit} : ∀ {bs : List β},
    (∀ b ∈ bs, Succeeds I (g b) fun _ => True) → Succeeds I (Attempt.each g bs) fun _ => True
  | [], _ => fun s hs => ⟨(), s, rfl, trivial, hs⟩
  | _ :: _, h => by
    obtain ⟨hb, hrest⟩ := List.forall_mem_cons.1 h
    exact .bind hb fun _ _ => each hrest

end Succeeds

/-! ## Where attempts end -/

/-- From the state, the attempt comes to a result and a state of `P`, or it fails in a state of `F`. -/
def Ends (P : α → σ → Prop) (F : σ → Prop) (m : Attempt σ ε α) (s : σ) : Prop :=
  match m.on s with
  | (.ok a, s') => P a s'
  | (.error _, s') => F s'

namespace Ends

variable {P P' : α → σ → Prop} {Q : β → σ → Prop} {F F' : σ → Prop} {m : Attempt σ ε α}
  {f : α → Attempt σ ε β} {s s' : σ}

theorem ok {a : α} (h : Ends P F m s) (hm : m.on s = (.ok a, s')) : P a s' := by
  rwa [Ends, hm] at h

theorem error {e : ε} (h : Ends P F m s) (hm : m.on s = (.error e, s')) : F s' := by
  rwa [Ends, hm] at h

theorem of (hok : ∀ a s', m.on s = (.ok a, s') → P a s')
    (herror : ∀ e s', m.on s = (.error e, s') → F s') : Ends P F m s := by
  rw [Ends]
  rcases hm : m.on s with ⟨e | a, s'⟩
  · exact herror e s' hm
  · exact hok a s' hm

theorem mono (h : Ends P F m s) (hP : ∀ a s', P a s' → P' a s') (hF : ∀ s', F s' → F' s') :
    Ends P' F' m s :=
  of (fun a s' hm => hP a s' (h.ok hm)) fun _ s' hm => hF s' (h.error hm)

theorem bind (h : Ends P F m s) (hf : ∀ a s', P a s' → Ends Q F (f a) s') : Ends Q F (m >>= f) s := by
  rw [Ends, on_bind]
  rcases hm : m.on s with ⟨e | a, s'⟩
  · exact h.error hm
  · exact hf a s' (h.ok hm)

theorem mapError {g : ε → ε'} (h : Ends P F m s) : Ends P F (m.mapError g) s := by
  rw [Ends, on_mapError]
  rcases hm : m.on s with ⟨e | a, s'⟩
  · exact h.error hm
  · exact h.ok hm

theorem orFail {I : σ → Prop} (e : ε) (a? : Option α) (hs : I s) (hF : ∀ s', I s' → F s') :
    Ends (fun _ => I) F (Attempt.orFail e a?) s := by
  cases a? with
  | none => exact hF s hs
  | some a => exact hs

theorem each {I : σ → Prop} {g : β → Attempt σ ε Unit}
    (hg : ∀ b s, I s → Ends (fun _ => I) F (g b) s) :
    ∀ (bs : List β) {s : σ}, I s → Ends (fun _ => I) F (Attempt.each g bs) s
  | [], _, hs => hs
  | b :: rest, _, hs => (hg b _ hs).bind fun _ _ hs' => each hg rest hs'

end Ends

end Enclosure.Attempt
