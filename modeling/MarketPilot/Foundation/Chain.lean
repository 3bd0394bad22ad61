/-
# MarketPilot.Foundation.Chain — logs whose entries follow from the ones before them

An audit log of moves `source → target` is unbroken from `s` when the first event leaves `s` and every
later event leaves the target of its predecessor.  The position a log ends in is the target of its
last event, or `s` when it is empty; appending an event keeps the log unbroken exactly when the event
leaves that position.

`EachAfter P` is the rule behind such logs: every entry was admitted by `P` given the entries before
it.  A log of several kinds of entries, or of several interleaved histories, that was written under a
rule of this form yields an unbroken log for each history on its own.

In a hash chain an entry has a number, the digest of the entry before it, and a digest of its own.  Where a
digest determines its entry, the digest of the last entry determines the whole log: the number says how long
the log is, and each entry gives the digest to go back by.
-/
import Mathlib.Data.List.Induction
import Mathlib.Tactic.Common

namespace MarketPilot.Foundation

variable {V E : Type} (source : E → Option V) (target : E → V)

/-- The log is unbroken from position `s`. -/
def Chained : Option V → List E → Prop
  | _, [] => True
  | s, e :: es => source e = s ∧ Chained (some (target e)) es

/-- The position a log that started in `s` ends in. -/
def chainEnd : Option V → List E → Option V
  | s, [] => s
  | _, e :: es => chainEnd (some (target e)) es

variable {source target}

@[simp] theorem chained_nil (s : Option V) : Chained source target s [] := trivial

@[simp] theorem chainEnd_nil (s : Option V) : chainEnd target s [] = s := rfl

theorem chained_append {s : Option V} {es fs : List E} :
    Chained source target s (es ++ fs) ↔
      Chained source target s es ∧ Chained source target (chainEnd target s es) fs := by
  induction es generalizing s with
  | nil => simp [chainEnd]
  | cons e es ih => simp [Chained, chainEnd, ih, and_assoc]

theorem chained_concat {s : Option V} {es : List E} {e : E} :
    Chained source target s (es ++ [e]) ↔
      Chained source target s es ∧ source e = chainEnd target s es := by
  rw [chained_append]
  simp [Chained]

@[simp] theorem chainEnd_concat (s : Option V) (es : List E) (e : E) :
    chainEnd target s (es ++ [e]) = some (target e) := by
  induction es generalizing s with
  | nil => rfl
  | cons f es ih => exact ih _

theorem chainEnd_eq_getLast? (s : Option V) (es : List E) :
    chainEnd target s es = (es.getLast?.map target).or s := by
  induction es using List.reverseRecOn with
  | nil => simp
  | append_singleton es e _ => simp

/-- Neighbours of an unbroken log: the later event leaves the earlier one's target. -/
theorem Chained.adjacent {s : Option V} {pre post : List E} {e f : E}
    (h : Chained source target s (pre ++ e :: f :: post)) : source f = some (target e) :=
  (chained_append.mp h).2.2.1

/-- The first event of an unbroken log leaves the start. -/
theorem Chained.first {s : Option V} {e : E} {es : List E}
    (h : Chained source target s (e :: es)) : source e = s :=
  h.1

theorem chained_map {F : Type} {f : F → E} {s : Option V} {fs : List F} :
    Chained source target s (fs.map f) ↔
      Chained (fun x => source (f x)) (fun x => target (f x)) s fs := by
  induction fs generalizing s with
  | nil => exact Iff.rfl
  | cons x fs ih => simp [Chained, ih]

/-! ## Logs written under a rule -/

section Admission

variable {α : Type} {P Q : List α → α → Prop}

/-- Every entry of `rest` satisfies `P` given everything before it, `past` included. -/
def EachAfter (P : List α → α → Prop) : List α → List α → Prop
  | _, [] => True
  | past, x :: rest => P past x ∧ EachAfter P (past ++ [x]) rest

@[simp] theorem eachAfter_nil (past : List α) : EachAfter P past [] := trivial

@[simp] theorem eachAfter_cons {past rest : List α} {x : α} :
    EachAfter P past (x :: rest) ↔ P past x ∧ EachAfter P (past ++ [x]) rest := Iff.rfl

theorem eachAfter_append {past xs ys : List α} :
    EachAfter P past (xs ++ ys) ↔ EachAfter P past xs ∧ EachAfter P (past ++ xs) ys := by
  induction xs generalizing past with
  | nil => simp
  | cons x xs ih => simp [ih, and_assoc]

theorem eachAfter_concat {past xs : List α} {x : α} :
    EachAfter P past (xs ++ [x]) ↔ EachAfter P past xs ∧ P (past ++ xs) x := by
  rw [eachAfter_append]
  simp

theorem EachAfter.mono (h : ∀ past x, P past x → Q past x) :
    ∀ {past xs : List α}, EachAfter P past xs → EachAfter Q past xs
  | _, [], _ => trivial
  | _, _ :: _, ⟨hx, hxs⟩ => ⟨h _ _ hx, EachAfter.mono h hxs⟩

/-- The entry in any place of the log was admitted there. -/
theorem EachAfter.at {past pre post : List α} {x : α}
    (h : EachAfter P past (pre ++ x :: post)) : P (past ++ pre) x :=
  (eachAfter_append.mp h).2.1

theorem EachAfter.mem {past xs : List α} {x : α} (h : EachAfter P past xs) (hx : x ∈ xs) :
    ∃ before, P before x := by
  obtain ⟨pre, post, rfl⟩ := List.append_of_mem hx
  exact ⟨past ++ pre, h.at⟩

/-- **One history out of many.** If the rule makes every entry that belongs to a history leave the
position this history is in, the history is unbroken. -/
theorem EachAfter.chained {f : α → Option E} {s : Option V}
    (hP : ∀ past x e, P past x → f x = some e →
      source e = chainEnd target s (past.filterMap f)) {xs : List α} (h : EachAfter P [] xs) :
    Chained source target s (xs.filterMap f) := by
  induction xs using List.reverseRecOn with
  | nil => trivial
  | append_singleton xs x ih =>
    obtain ⟨hxs, hx⟩ := eachAfter_concat.mp h
    rw [List.filterMap_append]
    cases hf : f x with
    | none => simpa [hf] using ih hxs
    | some e =>
      have hsource := hP _ x e hx hf
      simp only [List.filterMap_cons, hf, List.filterMap_nil]
      exact chained_concat.mpr ⟨ih hxs, by simpa using hsource⟩

end Admission

end MarketPilot.Foundation

namespace MarketPilot.Foundation

variable {E H : Type} (number : E → Int) (previous digest : E → H)

/-- The log is numbered from `n`, and its first entry names `genesis`. -/
def Linked : Int → H → List E → Prop
  | _, _, [] => True
  | n, genesis, e :: es => number e = n ∧ previous e = genesis ∧ Linked (n + 1) (digest e) es

/-- The digest of the last entry. -/
def head (es : List E) : Option H := es.getLast?.map digest

variable {number previous digest} {n : Int} {genesis : H}

@[simp] theorem linked_nil : Linked number previous digest n genesis [] := trivial

@[simp] theorem head_nil : head digest ([] : List E) = none := rfl

@[simp] theorem head_concat (es : List E) (e : E) : head digest (es ++ [e]) = some (digest e) := by
  simp [head]

theorem head_cons (e : E) (es : List E) :
    head digest (e :: es) = some ((head digest es).getD (digest e)) := by
  cases es using List.reverseRecOn with
  | nil => rfl
  | append_singleton es f =>
    rw [head_concat, ← List.cons_append, head_concat]
    rfl

theorem head_eq_none_iff {es : List E} : head digest es = none ↔ es = [] := by
  rw [head, Option.map_eq_none_iff, List.getLast?_eq_none_iff]

/-- An entry goes on a linked log where its number is the next one and it names the head. -/
theorem linked_concat {es : List E} {e : E} :
    Linked number previous digest n genesis (es ++ [e]) ↔
      Linked number previous digest n genesis es ∧ number e = n + es.length ∧
        previous e = (head digest es).getD genesis := by
  induction es generalizing n genesis with
  | nil => simp [Linked]
  | cons f es ih =>
    rw [List.cons_append, Linked, Linked, ih, head_cons, Option.getD_some, List.length_cons]
    have hnumber : number e = n + 1 + (es.length : Int) ↔ number e = n + ((es.length + 1 : Nat) : Int) := by
      omega
    rw [hnumber]
    tauto

/-- **The head binds the log.** -/
theorem eq_of_head_eq {xs ys : List E} (hbind : ∀ a ∈ xs, ∀ b ∈ ys, digest a = digest b → a = b)
    (hxs : Linked number previous digest n genesis xs)
    (hys : Linked number previous digest n genesis ys) (hhead : head digest xs = head digest ys) :
    xs = ys := by
  induction xs using List.reverseRecOn generalizing ys with
  | nil => exact (head_eq_none_iff.mp hhead.symm).symm
  | append_singleton xs a ih =>
    cases ys using List.reverseRecOn with
    | nil => exact head_eq_none_iff.mp hhead
    | append_singleton ys b =>
      rw [head_concat, head_concat] at hhead
      obtain rfl : a = b := hbind a (by simp) b (by simp) (Option.some.inj hhead)
      obtain ⟨hxs, hnumber, hprevious⟩ := linked_concat.mp hxs
      obtain ⟨hys, hnumber', hprevious'⟩ := linked_concat.mp hys
      have hlength : xs.length = ys.length := by omega
      have hbefore : head digest xs = head digest ys := by
        have hsame := hprevious.symm.trans hprevious'
        cases xs using List.reverseRecOn with
        | nil => rw [List.length_eq_zero_iff.mp hlength.symm]
        | append_singleton xs c =>
          cases ys using List.reverseRecOn with
          | nil => exact absurd hlength (by simp)
          | append_singleton ys d =>
            rw [head_concat, head_concat, Option.getD_some, Option.getD_some] at hsame
            rw [head_concat, head_concat, hsame]
      rw [ih (fun a ha b hb => hbind a (List.mem_append_left _ ha) b (List.mem_append_left _ hb))
        hxs hys hbefore]

end MarketPilot.Foundation
