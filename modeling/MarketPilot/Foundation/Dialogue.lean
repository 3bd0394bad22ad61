/-
# MarketPilot.Foundation.Dialogue — a program and whoever answers it

A program that runs other programs asks questions and goes on with the answers.  A respondent answers a question
in the light of all that was said before, so a statement about every respondent is one about every behaviour of
the other side.  A dialogue keeps the exchanges in order, also those before an exception.

`Says` speaks about the outcome of a dialogue and about what it adds to the exchanges, `Gives` about its result
where there is one.  Many properties of
exchanges are kept where one piece follows another (`Joins`); for these the rules need no outcome.  One of them
is that whatever needs a permit got it in the exchange right before (`Permitted`).

Nothing here mentions a particular program.
-/
import Mathlib.Data.List.Forall2
import MarketPilot.Foundation.Effect

namespace MarketPilot.Foundation

section Dialogue

variable {Question : Type} (Answer : Question → Type)

/-- A question and the answer it got. -/
structure Exchange where
  question : Question
  answer : Answer question

/-- Whoever answers, knowing what was said. -/
abbrev Respondent : Type := List (Exchange Answer) → (question : Question) → Answer question

/-- A program that asks, and remembers what it was answered. -/
abbrev Dialogue (ε α : Type) : Type := Eff ε (List (Exchange Answer)) α

variable {Answer} {ε α β ι : Type}

/-- Ask a question. -/
def ask (respond : Respondent Answer) (question : Question) : Dialogue Answer ε (Answer question) := fun log =>
  (.ok (respond log question), log ++ [⟨question, respond log question⟩])

/-- The dialogue adds exchanges, and `P` holds of its outcome and of these. -/
def Says (m : Dialogue Answer ε α) (P : Except ε α → List (Exchange Answer) → Prop) : Prop :=
  ∀ log, ∃ said, (m log).2 = log ++ said ∧ P (m log).1 said

variable {m : Dialogue Answer ε α} {f : α → Dialogue Answer ε β}
    {P Q : Except ε α → List (Exchange Answer) → Prop}

/-! ## Rules with an outcome -/

namespace Says

theorem mono (h : Says m P) (hPQ : ∀ r said, P r said → Q r said) : Says m Q := by
  intro log
  obtain ⟨said, hsaid, hP⟩ := h log
  exact ⟨said, hsaid, hPQ _ _ hP⟩

theorem and (h : Says m P) (h' : Says m Q) : Says m fun r said => P r said ∧ Q r said := by
  intro log
  obtain ⟨said, hsaid, hP⟩ := h log
  obtain ⟨said', hsaid', hQ⟩ := h' log
  obtain rfl : said' = said := List.append_cancel_left (hsaid'.symm.trans hsaid)
  exact ⟨said', hsaid', hP, hQ⟩

theorem pure {a : α} (h : P (.ok a) []) : Says (Pure.pure a) P := fun log => ⟨[], (List.append_nil log).symm, h⟩

theorem lift {r : Except ε α} (h : P r []) : Says (Eff.lift r) P :=
  fun log => ⟨[], (List.append_nil log).symm, h⟩

theorem raise {e : ε} (h : P (.error e) []) : Says (Eff.raise e) P :=
  fun log => ⟨[], (List.append_nil log).symm, h⟩

theorem ask {respond : Respondent Answer} {question : Question}
    {P : Except ε (Answer question) → List (Exchange Answer) → Prop}
    (h : ∀ answer, P (.ok answer) [⟨question, answer⟩]) : Says (Foundation.ask respond question) P :=
  fun _ => ⟨_, rfl, h _⟩

theorem bind {R : Except ε α → List (Exchange Answer) → Prop} {P : Except ε β → List (Exchange Answer) → Prop}
    (hm : Says m R) (hf : ∀ a said, R (.ok a) said → Says (f a) fun r more => P r (said ++ more))
    (he : ∀ e said, R (.error e) said → P (.error e) said) : Says (m >>= f) P := by
  intro log
  obtain ⟨said, hsaid, hR⟩ := hm log
  rw [Eff.bind_apply]
  rcases hout : m log with ⟨e | a, log'⟩
  · rw [hout] at hsaid hR
    exact ⟨said, hsaid, he e said hR⟩
  · rw [hout] at hsaid hR
    obtain rfl : log' = log ++ said := hsaid
    obtain ⟨more, hmore, hP⟩ := hf a said hR (log ++ said)
    exact ⟨said ++ more, by rw [hmore, List.append_assoc], hP⟩

theorem attempt {P : Except ε (Except ε α) → List (Exchange Answer) → Prop}
    (h : Says m fun r said => P (.ok r) said) : Says (Eff.attempt m) P := h

theorem ite {c : Prop} [Decidable c] {n : Dialogue Answer ε α} (ht : c → Says m P) (hf : ¬ c → Says n P) :
    Says (if c then m else n) P := by
  by_cases h : c
  · rw [if_pos h]
    exact ht h
  · rw [if_neg h]
    exact hf h

end Says

/-! ## Rules for a result -/

/-- Where the dialogue returns, `P` holds of the result and of the exchanges it added. -/
def Gives (m : Dialogue Answer ε α) (P : α → List (Exchange Answer) → Prop) : Prop :=
  Says m fun r said => ∀ a, r = .ok a → P a said

namespace Gives

variable {P : α → List (Exchange Answer) → Prop} {Q : β → List (Exchange Answer) → Prop}

theorem mono {P' : α → List (Exchange Answer) → Prop} (h : Gives m P) (hP : ∀ a said, P a said → P' a said) :
    Gives m P' := Says.mono h fun _ _ hr a ha => hP a _ (hr a ha)

theorem pure {a : α} (h : P a []) : Gives (Pure.pure a : Dialogue Answer ε α) P := by
  refine Says.pure ?_
  rintro _ ⟨⟩
  exact h

theorem raise {e : ε} : Gives (Eff.raise e : Dialogue Answer ε α) P := by
  refine Says.raise ?_
  rintro _ ⟨⟩

theorem lift {r : Except ε α} (h : ∀ a, r = .ok a → P a []) : Gives (Eff.lift r : Dialogue Answer ε α) P :=
  Says.lift h

theorem ask {respond : Respondent Answer} {question : Question}
    {P : Answer question → List (Exchange Answer) → Prop}
    (h : ∀ answer, P answer [⟨question, answer⟩]) :
    Gives (Foundation.ask respond question : Dialogue Answer ε (Answer question)) P := by
  refine Says.ask fun answer => ?_
  rintro _ ⟨⟩
  exact h answer

theorem bind (hm : Gives m P) (hf : ∀ a said, P a said → Gives (f a) fun b more => Q b (said ++ more)) :
    Gives (m >>= f) Q := by
  refine Says.bind hm (fun a said h => hf a said (h a rfl)) ?_
  rintro e said _ _ ⟨⟩

theorem ite {c : Prop} [Decidable c] {n : Dialogue Answer ε α} (ht : c → Gives m P) (hf : ¬ c → Gives n P) :
    Gives (if c then m else n) P := Says.ite ht hf

/-- A loop whose turns keep an invariant of what was done, of the value and of the exchanges. -/
theorem foldlM {body : β → ι → Dialogue Answer ε β} {I : List ι → β → List (Exchange Answer) → Prop}
    {xs : List ι} :
    ∀ {done : List ι} {b : β} {said : List (Exchange Answer)},
      (∀ done b said, ∀ x ∈ xs, I done b said →
        Gives (body b x) fun b' more => I (done ++ [x]) b' (said ++ more)) →
      I done b said → Gives (xs.foldlM body b) fun b' more => I (done ++ xs) b' (said ++ more) := by
  induction xs with
  | nil =>
    intro done b said _ hI
    refine pure ?_
    rw [List.append_nil, List.append_nil]
    exact hI
  | cons x xs ih =>
    intro done b said hbody hI
    rw [List.foldlM_cons]
    refine (hbody done b said x List.mem_cons_self hI).bind fun b' more hmore => ?_
    refine (ih (fun done b said y hy => hbody done b said y (List.mem_cons_of_mem x hy)) hmore).mono ?_
    intro b'' rest hrest
    rw [List.append_assoc, List.append_assoc] at hrest
    exact hrest

end Gives

/-! ## What joining keeps -/

/-- A property of exchanges that the empty list has, and that is kept where one list follows another. -/
structure Joins (S : List (Exchange Answer) → Prop) : Prop where
  nil : S []
  append : ∀ {xs ys}, S xs → S ys → S (xs ++ ys)

namespace Joins

variable {S T : List (Exchange Answer) → Prop}

theorem and (hS : Joins S) (hT : Joins T) : Joins fun said => S said ∧ T said :=
  ⟨⟨hS.nil, hT.nil⟩, fun hx hy => ⟨hS.append hx.1 hy.1, hT.append hx.2 hy.2⟩⟩

theorem forall_mem (C : Exchange Answer → Prop) : Joins fun said => ∀ x ∈ said, C x :=
  ⟨by simp, fun hx hy x hmem => (List.mem_append.mp hmem).elim (hx x) (hy x)⟩

theorem pure (hS : Joins S) {a : α} : Says (Pure.pure a : Dialogue Answer ε α) fun _ => S := Says.pure hS.nil

theorem lift (hS : Joins S) {r : Except ε α} : Says (Eff.lift r : Dialogue Answer ε α) fun _ => S :=
  Says.lift hS.nil

theorem raise (hS : Joins S) {e : ε} : Says (Eff.raise e : Dialogue Answer ε α) fun _ => S := Says.raise hS.nil

theorem bind (hS : Joins S) (hm : Says m fun _ => S) (hf : ∀ a, Says (f a) fun _ => S) :
    Says (m >>= f) fun _ => S :=
  Says.bind hm (fun a _ hsaid => (hf a).mono fun _ _ hmore => hS.append hsaid hmore) fun _ _ hsaid => hsaid

theorem collect (hS : Joins S) {body : ι → Dialogue Answer ε (List β)} {xs : List ι}
    (h : ∀ x ∈ xs, Says (body x) fun _ => S) : Says (Eff.collect body xs) fun _ => S := by
  induction xs with
  | nil => exact hS.pure
  | cons x xs ih =>
    refine hS.bind (h x List.mem_cons_self) fun _ => ?_
    exact hS.bind (ih fun y hy => h y (List.mem_cons_of_mem x hy)) fun _ => hS.pure

theorem foldlM (hS : Joins S) {body : β → ι → Dialogue Answer ε β} {xs : List ι}
    (h : ∀ b, ∀ x ∈ xs, Says (body b x) fun _ => S) : ∀ b, Says (xs.foldlM body b) fun _ => S := by
  induction xs with
  | nil => exact fun _ => hS.pure
  | cons x xs ih =>
    intro b
    rw [List.foldlM_cons]
    exact hS.bind (h b x List.mem_cons_self) fun b' => ih (fun b y hy => h b y (List.mem_cons_of_mem x hy)) b'

end Joins

/-! ## Permits -/

/-- Every exchange that needs a permit comes right after one that permits it. -/
def Permitted (Needs : Exchange Answer → Prop) (Permits : Exchange Answer → Exchange Answer → Prop)
    (said : List (Exchange Answer)) : Prop :=
  ∀ before x after, said = before ++ x :: after → Needs x → ∃ earlier y, before = earlier ++ [y] ∧ Permits y x

variable {Needs : Exchange Answer → Prop} {Permits : Exchange Answer → Exchange Answer → Prop}

theorem permitted_of_forall {said : List (Exchange Answer)} (h : ∀ x ∈ said, ¬ Needs x) :
    Permitted Needs Permits said := by
  rintro before x after rfl hneeds
  exact absurd hneeds (h x (by simp))

theorem permitted_pair {x y : Exchange Answer} (hy : ¬ Needs y) (hpermits : Permits y x) :
    Permitted Needs Permits [y, x] := by
  intro before z after hsaid hneeds
  match before with
  | [] =>
    obtain ⟨rfl, -⟩ := List.cons.inj hsaid
    exact absurd hneeds hy
  | [y'] =>
    obtain ⟨rfl, hrest⟩ := List.cons.inj hsaid
    obtain ⟨rfl, -⟩ := List.cons.inj hrest
    exact ⟨[], y, rfl, hpermits⟩
  | _ :: _ :: _ => simp at hsaid

theorem joins_permitted : Joins (Permitted Needs Permits) := by
  refine ⟨permitted_of_forall (by simp), ?_⟩
  intro xs ys hxs hys before x after hsaid hneeds
  rcases List.append_eq_append_iff.mp hsaid with ⟨rest, rfl, hrest⟩ | ⟨rest, rfl, hrest⟩
  · -- the exchange is one of the second list
    obtain ⟨earlier, y, rfl, hpermits⟩ := hys rest x after hrest hneeds
    exact ⟨xs ++ earlier, y, by rw [List.append_assoc], hpermits⟩
  · cases rest with
    | nil =>
      obtain ⟨earlier, y, hnil, -⟩ := hys [] x after hrest.symm hneeds
      exact absurd hnil (by simp)
    | cons z rest =>
      obtain ⟨rfl, -⟩ := List.cons.inj hrest
      exact hxs before x rest rfl hneeds

/-! ## Two dialogues -/

section Tied

variable (Alike : Exchange Answer → Exchange Answer → Prop)

/-- Alike exchanges so far are continued alike, where the questions may be asked side by side. -/
def Matched (Asked : Question → Question → Prop) (r r' : Respondent Answer) : Prop :=
  ∀ {l l'}, List.Forall₂ Alike l l' → ∀ {q q'}, Asked q q' → Alike ⟨q, r l q⟩ ⟨q', r' l' q'⟩

/-- Both outcomes are results that are related, or both are the same exception. -/
def OutcomesRelated (R : α → β → Prop) : Except ε α → Except ε β → Prop
  | .ok a, .ok b => R a b
  | .error e, .error e' => e = e'
  | _, _ => False

theorem OutcomesRelated.of_eq {x y : Except ε α} (h : x = y) : OutcomesRelated Eq x y := by
  subst h
  cases x with
  | ok a => exact rfl
  | error e => exact rfl

theorem OutcomesRelated.eq {x y : Except ε α} (h : OutcomesRelated Eq x y) : x = y := by
  match x, y, h with
  | .ok a, .ok b, h => exact congrArg _ h
  | .error e, .error f, h => exact congrArg _ h

/-- Alike exchanges so far lead to alike exchanges and related outcomes. -/
def Tied (R : α → β → Prop) (m : Dialogue Answer ε α) (n : Dialogue Answer ε β) : Prop :=
  ∀ l l', List.Forall₂ Alike l l' →
    OutcomesRelated R (m l).1 (n l').1 ∧ List.Forall₂ Alike (m l).2 (n l').2

variable {Alike} {α' β' ι' : Type} {R : α → α' → Prop} {S : β → β' → Prop}

namespace Tied

theorem pure {a : α} {a' : α'} (h : R a a') :
    Tied Alike R (Pure.pure a : Dialogue Answer ε α) (Pure.pure a') := fun _ _ hl => ⟨h, hl⟩

theorem raise {e : ε} : Tied Alike R (Eff.raise e : Dialogue Answer ε α) (Eff.raise e) :=
  fun _ _ hl => ⟨rfl, hl⟩

theorem lift {r : Except ε α} {r' : Except ε α'} (h : OutcomesRelated R r r') :
    Tied Alike R (Eff.lift r : Dialogue Answer ε α) (Eff.lift r') := fun _ _ hl => ⟨h, hl⟩

theorem ask {Asked : Question → Question → Prop} {r r' : Respondent Answer}
    (hmatched : Matched Alike Asked r r')
    {q q' : Question} (hasked : Asked q q') {R : Answer q → Answer q' → Prop}
    (hR : ∀ a a', Alike ⟨q, a⟩ ⟨q', a'⟩ → R a a') :
    Tied Alike R (Foundation.ask r q : Dialogue Answer ε (Answer q)) (Foundation.ask r' q') := by
  intro l l' hl
  have halike := hmatched hl hasked
  exact ⟨hR _ _ halike, List.rel_append hl (.cons halike .nil)⟩

theorem bind {m : Dialogue Answer ε α} {m' : Dialogue Answer ε α'} {f : α → Dialogue Answer ε β}
    {f' : α' → Dialogue Answer ε β'} (hm : Tied Alike R m m')
    (hf : ∀ a a', R a a' → Tied Alike S (f a) (f' a')) :
    Tied Alike S (m >>= f) (m' >>= f') := by
  intro l l' hl
  have h := hm l l' hl
  rw [Eff.bind_apply, Eff.bind_apply]
  rcases hout : m l with ⟨e | a, log⟩ <;> rcases hout' : m' l' with ⟨e' | a', log'⟩ <;> rw [hout, hout'] at h
  · exact h
  · exact h.1.elim
  · exact h.1.elim
  · exact hf a a' h.1 log log' h.2

theorem ite {c c' : Prop} [Decidable c] [Decidable c'] (hc : c ↔ c') {m n : Dialogue Answer ε α}
    {m' n' : Dialogue Answer ε α'} (hm : c → Tied Alike R m m') (hn : ¬ c → Tied Alike R n n') :
    Tied Alike R (if c then m else n) (if c' then m' else n') := by
  by_cases h : c
  · rw [if_pos h, if_pos (hc.mp h)]
    exact hm h
  · rw [if_neg h, if_neg fun h' => h (hc.mpr h')]
    exact hn h

theorem foldlM {T : ι → ι' → Prop} {body : β → ι → Dialogue Answer ε β} {body' : β' → ι' → Dialogue Answer ε β'}
    (h : ∀ b b' x x', S b b' → T x x' → Tied Alike S (body b x) (body' b' x')) {xs : List ι} {xs' : List ι'}
    (hxs : List.Forall₂ T xs xs') :
    ∀ b b', S b b' → Tied Alike S (xs.foldlM body b) (xs'.foldlM body' b') := by
  induction hxs with
  | nil => exact fun b b' hb => pure hb
  | cons hx _ ih =>
    intro b b' hb
    rw [List.foldlM_cons, List.foldlM_cons]
    exact (h b b' _ _ hb hx).bind ih

end Tied

end Tied

end Dialogue

end MarketPilot.Foundation
