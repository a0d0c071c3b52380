/-
# Theory.Cursor — readers over a cursor into a fixed buffer

A `Reader` sees the whole buffer and the cursor position, and either fails or
gives a value and the next position; it may look anywhere in the buffer, as a
reader that follows offsets must.

Two judgements about readers, each closed under sequencing and repetition:

* `Reads r bs P`: wherever the octets `bs` stand, `r` started in front of them
  succeeds, stops right behind them, and its value satisfies `P`;
* `Yields r P`: whatever `r` succeeds with satisfies `P`.
-/
import Mathlib.Data.List.Forall2

namespace DnsLigase.Theory.Cursor

set_option autoImplicit false

/-- A computation over a buffer and a cursor position. -/
def Reader (ε α : Type) := List UInt8 → Nat → Except ε (α × Nat)

namespace Reader

variable {ε α β : Type}

instance : Monad (Reader ε) where
  pure a := fun _ pos => .ok (a, pos)
  bind r f := fun data pos =>
    match r data pos with
    | .ok (a, pos') => f a data pos'
    | .error e => .error e

/-- `read_exact`: the next `n` octets, or `eof` when fewer are left. -/
def readExact (eof : ε) (n : Nat) : Reader ε (List UInt8) := fun data pos =>
  if data.length - pos < n then .error eof else .ok ((data.drop pos).take n, pos + n)

/-- Run `r` for its value only: the cursor is put back and a failure is `none`. -/
def peek (r : Reader ε α) : Reader ε (Option α) := fun data pos =>
  .ok ((r data pos).toOption.map Prod.fst, pos)

/-- `for _ in 0..n { out.push(r()?) }`. -/
def many (r : Reader ε α) : Nat → Reader ε (List α)
  | 0 => pure []
  | n + 1 => do
      let a ← r
      let rest ← many r n
      pure (a :: rest)

variable {r : Reader ε α} {f : α → Reader ε β} {data : List UInt8} {pos : Nat}

/-! ## Inversion -/

@[simp] theorem pure_eq_ok {a b : α} {pos' : Nat} :
    (pure a : Reader ε α) data pos = .ok (b, pos') ↔ a = b ∧ pos = pos' := by
  change Except.ok (a, pos) = .ok (b, pos') ↔ _
  simp

theorem bind_eq_ok {b : β} {pos' : Nat} :
    (r >>= f) data pos = .ok (b, pos') ↔
      ∃ a mid, r data pos = .ok (a, mid) ∧ f a data mid = .ok (b, pos') := by
  change (match r data pos with
    | .ok (a, mid) => f a data mid
    | .error e => .error e) = _ ↔ _
  cases h : r data pos with
  | ok out =>
      obtain ⟨a, mid⟩ := out
      simp
  | error e => simp

theorem bind_of_ok {a : α} {mid : Nat} (read : r data pos = .ok (a, mid)) :
    (r >>= f) data pos = f a data mid := by
  change (match r data pos with
    | .ok (a, mid) => f a data mid
    | .error e => .error e) = _
  rw [read]

theorem readExact_eq_ok {eof : ε} {n : Nat} {bs : List UInt8} {pos' : Nat} :
    readExact eof n data pos = .ok (bs, pos') ↔
      n ≤ data.length - pos ∧ bs = (data.drop pos).take n ∧ pos' = pos + n := by
  unfold readExact
  split
  · rename_i short
    constructor
    · intro h; cases h
    · rintro ⟨long, -, -⟩; omega
  · rename_i long
    simp only [Except.ok.injEq, Prod.mk.injEq]
    constructor
    · rintro ⟨rfl, rfl⟩; exact ⟨by omega, rfl, rfl⟩
    · rintro ⟨-, rfl, rfl⟩; exact ⟨rfl, rfl⟩

theorem peek_of_ok {a : α} {mid : Nat} (read : r data pos = .ok (a, mid)) :
    peek r data pos = .ok (some a, pos) := by
  simp [peek, read, Except.toOption]

/-! ## What follows a reader -/

/-- Where the octets `bs` stand, `r` reads exactly them, with a value in `P`. -/
def Reads (r : Reader ε α) (bs : List UInt8) (P : α → Prop) : Prop :=
  ∀ pre post, ∃ a, r (pre ++ (bs ++ post)) pre.length = .ok (a, pre.length + bs.length) ∧ P a

namespace Reads

variable {bs cs : List UInt8} {P : α → Prop} {Q : β → Prop}

theorem mono {P' : α → Prop} (reads : Reads r bs P) (weaker : ∀ a, P a → P' a) :
    Reads r bs P' := by
  intro pre post
  obtain ⟨a, read, holds⟩ := reads pre post
  exact ⟨a, read, weaker a holds⟩

theorem pure {a : α} (holds : P a) : Reads (Pure.pure a : Reader ε α) [] P :=
  fun pre post => ⟨a, by simp, holds⟩

theorem bind (first : Reads r bs P) (second : ∀ a, P a → Reads (f a) cs Q) :
    Reads (r >>= f) (bs ++ cs) Q := by
  intro pre post
  obtain ⟨a, readFirst, holds⟩ := first pre (cs ++ post)
  obtain ⟨b, readSecond, result⟩ := second a holds (pre ++ bs) post
  refine ⟨b, ?_, result⟩
  have joined : pre ++ (bs ++ cs ++ post) = pre ++ (bs ++ (cs ++ post)) := by
    simp only [List.append_assoc]
  have split : pre ++ bs ++ (cs ++ post) = pre ++ (bs ++ (cs ++ post)) := by
    simp only [List.append_assoc]
  rw [split] at readSecond
  rw [joined, bind_of_ok readFirst, ← List.length_append, readSecond]
  simp only [List.length_append, Nat.add_assoc]

/-- A last step that only computes. -/
theorem bind_pure {g : α → β} (reads : Reads r bs fun a => Q (g a)) :
    Reads (r >>= fun a => Pure.pure (g a)) bs Q := by
  simpa using reads.bind fun a holds => Reads.pure (a := g a) holds

theorem readExact {eof : ε} {n : Nat} (len : bs.length = n) :
    Reads (Reader.readExact eof n) bs (· = bs) := by
  intro pre post
  subst len
  exact ⟨bs, readExact_eq_ok.mpr ⟨by simp, by simp, rfl⟩, rfl⟩

/-- A side read in front of octets it can read sees their value. -/
theorem peek_bind {g : Option α → Reader ε β} (side : Reads r bs P)
    (then_ : ∀ a, P a → Reads (g (some a)) bs Q) : Reads (peek r >>= g) bs Q := by
  intro pre post
  obtain ⟨a, read, holds⟩ := side pre post
  obtain ⟨b, readThen, result⟩ := then_ a holds pre post
  refine ⟨b, ?_, result⟩
  rw [bind_of_ok (peek_of_ok read), readThen]

/-- A side read whose value does not matter. -/
theorem peek_bind_any {g : Option α → Reader ε β} (then_ : ∀ o, Reads (g o) bs Q) :
    Reads (peek r >>= g) bs Q := by
  intro pre post
  obtain ⟨b, readThen, result⟩ := then_ _ pre post
  exact ⟨b, (bind_of_ok rfl).trans readThen, result⟩

/-- **Repetition**: items written one after the other are read one after the other. -/
theorem many {γ : Type} {enc : γ → List UInt8} {R : γ → α → Prop} :
    ∀ {xs : List γ}, (∀ x ∈ xs, Reads r (enc x) (R x)) →
      Reads (Reader.many r xs.length) (xs.flatMap enc) (List.Forall₂ R xs)
  | [], _ => Reads.pure .nil
  | x :: xs, each => by
      have rest := many fun y member => each y (List.mem_cons_of_mem x member)
      have head := each x List.mem_cons_self
      rw [List.flatMap_cons]
      refine head.bind fun a related => bind_pure (rest.mono fun as relatedAll => ?_)
      exact .cons related relatedAll

end Reads

/-! ## Octets at an offset -/

/-- The octets `bs` stand at offset `p`. -/
def StandsAt (data : List UInt8) (p : Nat) (bs : List UInt8) : Prop :=
  ∃ pre post, data = pre ++ (bs ++ post) ∧ p = pre.length

namespace StandsAt

variable {bs cs : List UInt8} {p : Nat}

theorem whole (data : List UInt8) : StandsAt data 0 data :=
  ⟨[], [], by simp, rfl⟩

theorem left (stands : StandsAt data p (bs ++ cs)) : StandsAt data p bs := by
  obtain ⟨pre, post, rfl, rfl⟩ := stands
  exact ⟨pre, cs ++ post, by rw [List.append_assoc], rfl⟩

theorem right (stands : StandsAt data p (bs ++ cs)) : StandsAt data (p + bs.length) cs := by
  obtain ⟨pre, post, rfl, rfl⟩ := stands
  exact ⟨pre ++ bs, post, by simp only [List.append_assoc], by rw [List.length_append]⟩

theorem getElem? (stands : StandsAt data p bs) {i : Nat} (inside : i < bs.length) :
    data[p + i]? = bs[i]? := by
  obtain ⟨pre, post, rfl, rfl⟩ := stands
  rw [List.getElem?_append_right (Nat.le_add_right _ _), Nat.add_sub_cancel_left,
    List.getElem?_append_left inside]

theorem slice {n : Nat} (inside : p + n ≤ data.length) :
    StandsAt data p ((data.drop p).take n) := by
  refine ⟨data.take p, (data.drop p).drop n, ?_, ?_⟩
  · rw [List.take_append_drop, List.take_append_drop]
  · rw [List.length_take]
    omega

end StandsAt

theorem Reads.at_ {bs : List UInt8} {P : α → Prop} {p : Nat} (reads : Reads r bs P)
    (stands : StandsAt data p bs) : ∃ a, r data p = .ok (a, p + bs.length) ∧ P a := by
  obtain ⟨pre, post, rfl, rfl⟩ := stands
  exact reads pre post

section Placed

variable {γ : Type} (enc : γ → List UInt8)

/-- Items written one behind the other from offset `p` on, each with its own offset. -/
def placed : Nat → List γ → List (Nat × γ)
  | _, [] => []
  | p, x :: xs => (p, x) :: placed (p + (enc x).length) xs

variable {enc} {p : Nat} {xs : List γ}

@[simp] theorem map_snd_placed : (placed enc p xs).map Prod.snd = xs := by
  induction xs generalizing p with
  | nil => rfl
  | cons x xs ih => rw [placed, List.map_cons, ih]

theorem placed_map {δ : Type} {f : δ → γ} : ∀ {p : Nat} {xs : List δ},
    placed enc p (xs.map f) = (placed (fun x => enc (f x)) p xs).map fun x => (x.1, f x.2)
  | _, [] => rfl
  | _, _ :: _ => by rw [List.map_cons, placed, placed, List.map_cons, placed_map]

theorem placed_append {ys : List γ} :
    placed enc p (xs ++ ys) = placed enc p xs ++ placed enc (p + (xs.flatMap enc).length) ys := by
  induction xs generalizing p with
  | nil => rfl
  | cons x xs ih =>
      simp only [List.cons_append, placed, ih, List.flatMap_cons, List.length_append, Nat.add_assoc]

theorem StandsAt.of_placed : ∀ {p : Nat} {xs : List γ}, StandsAt data p (xs.flatMap enc) →
    ∀ x ∈ placed enc p xs, StandsAt data x.1 (enc x.2)
  | _, [], _, _, member => by cases member
  | _, _ :: _, stands, x, member => by
      rcases List.mem_cons.mp member with rfl | member
      · exact stands.left
      · exact StandsAt.of_placed stands.right x member

/-- **Repetition at an offset**: the value of an item may depend on where it stands. -/
theorem many_placed {value : Nat × γ → α} : ∀ {p : Nat} {xs : List γ},
    (∀ x ∈ xs, ∀ p, StandsAt data p (enc x) →
      r data p = .ok (value (p, x), p + (enc x).length)) →
    StandsAt data p (xs.flatMap enc) →
    many r xs.length data p =
      .ok ((placed enc p xs).map value, p + (xs.flatMap enc).length)
  | _, [], _, _ => rfl
  | p, x :: xs, each, stands => by
      have head := each x List.mem_cons_self p stands.left
      have rest := many_placed (fun y member => each y (List.mem_cons_of_mem x member)) stands.right
      rw [List.length_cons, many, bind_of_ok head, bind_of_ok rest, List.flatMap_cons,
        List.length_append, ← Nat.add_assoc]
      rfl

end Placed

/-! ## What a reader can only give -/

/-- Whatever `r` succeeds with on `data` satisfies `P`. -/
def YieldsIn (data : List UInt8) (r : Reader ε α) (P : α → Prop) : Prop :=
  ∀ pos a pos', r data pos = .ok (a, pos') → P a

namespace YieldsIn

variable {P : α → Prop} {Q : β → Prop}

theorem pure {a : α} (holds : P a) : YieldsIn data (Pure.pure a : Reader ε α) P := by
  intro pos b pos' read
  exact (pure_eq_ok.mp read).1 ▸ holds

theorem bind (first : YieldsIn data r P) (second : ∀ a, P a → YieldsIn data (f a) Q) :
    YieldsIn data (r >>= f) Q := by
  intro pos b pos' read
  obtain ⟨a, mid, readFirst, readSecond⟩ := bind_eq_ok.mp read
  exact second a (first _ _ _ readFirst) _ _ _ readSecond

/-- A first step about which nothing is needed. -/
theorem bind_any (second : ∀ a, YieldsIn data (f a) Q) : YieldsIn data (r >>= f) Q :=
  bind (P := fun _ => True) (fun _ _ _ _ => trivial) fun a _ => second a

theorem peek (side : YieldsIn data r P) : YieldsIn data (peek r) fun o => ∀ a, o = some a → P a := by
  rintro pos o pos' read a rfl
  obtain ⟨found, -⟩ : (r data pos).toOption.map Prod.fst = some a ∧ pos = pos' := by
    simpa [Reader.peek] using read
  cases taken : r data pos with
  | error e =>
      rw [taken] at found
      cases found
  | ok out =>
      rw [taken] at found
      obtain rfl : out.1 = a := Option.some.inj found
      exact side pos out.1 out.2 taken

theorem many (each : YieldsIn data r P) :
    ∀ n, YieldsIn data (Reader.many r n) fun as => as.length = n ∧ ∀ a ∈ as, P a
  | 0 => pure ⟨rfl, by simp⟩
  | n + 1 => each.bind fun a holds => (many each n).bind fun as all =>
      pure ⟨by simp [all.1], by simpa using ⟨holds, all.2⟩⟩

end YieldsIn

/-- Whatever `r` succeeds with satisfies `P`. -/
def Yields (r : Reader ε α) (P : α → Prop) : Prop :=
  ∀ data pos a pos', r data pos = .ok (a, pos') → P a

namespace Yields

variable {P : α → Prop} {Q : β → Prop}

theorem pure {a : α} (holds : P a) : Yields (Pure.pure a : Reader ε α) P := by
  intro data
  exact YieldsIn.pure holds

theorem bind (first : Yields r P) (second : ∀ a, P a → Yields (f a) Q) :
    Yields (r >>= f) Q := fun data =>
  YieldsIn.bind (first data) fun a holds => second a holds data

/-- A first step about which nothing is needed. -/
theorem bind_any (second : ∀ a, Yields (f a) Q) : Yields (r >>= f) Q := fun data =>
  YieldsIn.bind_any fun a => second a data

theorem many (each : Yields r P) :
    ∀ n, Yields (Reader.many r n) fun as => as.length = n ∧ ∀ a ∈ as, P a := fun n data =>
  YieldsIn.many (each data) n

end Yields

/-! ## More octets behind the buffer -/

theorem slice_append {n : Nat} (inside : n ≤ data.length - pos) (more : List UInt8) :
    ((data ++ more).drop pos).take n = (data.drop pos).take n := by
  rcases Nat.le_total pos data.length with le | beyond
  · rw [List.drop_append_of_le_length le, List.take_append_of_le_length]
    rwa [List.length_drop]
  · have none_ : n = 0 := by omega
    rw [none_, List.take_zero, List.take_zero]

/-- Where `r` succeeds, `r'` succeeds whatever else stands behind the buffer; it stops at the same
place, with a value related by `R`. -/
def Grows (r r' : Reader ε α) (R : α → α → Prop) : Prop :=
  ∀ data more pos a pos', r data pos = .ok (a, pos') →
    ∃ a', r' (data ++ more) pos = .ok (a', pos') ∧ R a a'

namespace Grows

variable {r' : Reader ε α} {R : α → α → Prop} {S : β → β → Prop}

theorem pure {a a' : α} (related : R a a') :
    Grows (Pure.pure a : Reader ε α) (Pure.pure a') R := by
  intro data more pos b pos' read
  obtain ⟨rfl, rfl⟩ := pure_eq_ok.mp read
  exact ⟨a', rfl, related⟩

theorem bind {f' : α → Reader ε β} (first : Grows r r' R)
    (second : ∀ a a', R a a' → Grows (f a) (f' a') S) : Grows (r >>= f) (r' >>= f') S := by
  intro data more pos b pos' read
  obtain ⟨a, mid, readFirst, readSecond⟩ := bind_eq_ok.mp read
  obtain ⟨a', readFirst', related⟩ := first data more pos a mid readFirst
  obtain ⟨b', readSecond', result⟩ := second a a' related data more mid b pos' readSecond
  exact ⟨b', (bind_of_ok readFirst').trans readSecond', result⟩

/-- A first step that reads the same. -/
theorem bind_eq {f' : α → Reader ε β} (first : Grows r r' Eq)
    (second : ∀ a, Grows (f a) (f' a) S) : Grows (r >>= f) (r' >>= f') S :=
  first.bind fun a _ same => same ▸ second a

theorem readExact {eof : ε} {n : Nat} :
    Grows (Reader.readExact eof n) (Reader.readExact eof n) Eq := by
  intro data more pos bs pos' read
  obtain ⟨enough, rfl, rfl⟩ := readExact_eq_ok.mp read
  refine ⟨_, readExact_eq_ok.mpr ⟨?_, rfl, rfl⟩, (slice_append enough more).symm⟩
  rw [List.length_append]
  omega

/-- A side read may succeed where it failed, and no less. -/
theorem peek (side : Grows r r' R) :
    Grows (peek r) (Reader.peek r') fun o o' => ∀ a, o = some a → ∃ a', o' = some a' ∧ R a a' := by
  intro data more pos o pos' read
  obtain ⟨found, rfl⟩ : (r data pos).toOption.map Prod.fst = o ∧ pos = pos' := by
    simpa [Reader.peek] using read
  refine ⟨_, rfl, fun a some_ => ?_⟩
  cases taken : r data pos with
  | error e =>
      rw [taken, some_] at found
      cases found
  | ok out =>
      rw [taken, some_] at found
      obtain rfl : out.1 = a := Option.some.inj found
      obtain ⟨a', taken', related⟩ := side data more pos out.1 out.2 taken
      exact ⟨a', by rw [taken']; rfl, related⟩

theorem many (each : Grows r r' R) :
    ∀ n, Grows (Reader.many r n) (Reader.many r' n) (List.Forall₂ R)
  | 0 => pure .nil
  | n + 1 => each.bind fun _ _ head => (many each n).bind fun _ _ rest => pure (.cons head rest)

end Grows

/-! ## Related lists -/

theorem exists_right {α β : Type} {R : α → β → Prop} {as : List α} {bs : List β}
    (related : List.Forall₂ R as bs) {a : α} (member : a ∈ as) : ∃ b ∈ bs, R a b := by
  induction related with
  | nil => cases member
  | cons head _ ih =>
      rcases List.mem_cons.mp member with rfl | member
      · exact ⟨_, List.mem_cons_self, head⟩
      · obtain ⟨b, found, holds⟩ := ih member
        exact ⟨b, List.mem_cons_of_mem _ found, holds⟩

theorem exists_left {α β : Type} {R : α → β → Prop} {as : List α} {bs : List β}
    (related : List.Forall₂ R as bs) {b : β} (member : b ∈ bs) : ∃ a ∈ as, R a b :=
  exists_right related.flip member

/-! ## What a reader accepts of a grammar -/

/-- Items of a grammar one behind the other; `Item p x p'` says that `x` stands from
offset `p` to offset `p'`. -/
inductive Chain {γ : Type} (Item : Nat → γ → Nat → Prop) : Nat → List γ → Nat → Prop
  | nil {p : Nat} : Chain Item p [] p
  | cons {p mid p' : Nat} {x : γ} {xs : List γ} : Item p x mid → Chain Item mid xs p' →
      Chain Item p (x :: xs) p'

/-- Every item of a chain stands somewhere. -/
theorem Chain.item {γ : Type} {Item : Nat → γ → Nat → Prop} {p p' : Nat} {xs : List γ} {x : γ}
    (chain : Chain Item p xs p') (member : x ∈ xs) : ∃ q q', Item q x q' := by
  induction chain with
  | nil => cases member
  | cons item _ ih =>
      rcases List.mem_cons.mp member with rfl | member
      · exact ⟨_, _, item⟩
      · exact ih member

theorem Chain.append {γ : Type} {Item : Nat → γ → Nat → Prop} {p mid p' : Nat} {xs ys : List γ}
    (front : Chain Item p xs mid) (back : Chain Item mid ys p') : Chain Item p (xs ++ ys) p' := by
  induction front with
  | nil => exact back
  | cons head _ ih => exact .cons head (ih back)

theorem Chain.mono {γ : Type} {Item Item' : Nat → γ → Nat → Prop} {p p' : Nat} {xs : List γ}
    (chain : Chain Item p xs p') (weaker : ∀ p x p', Item p x p' → Item' p x p') :
    Chain Item' p xs p' := by
  induction chain with
  | nil => exact .nil
  | cons head _ ih => exact .cons (weaker _ _ _ head) ih

theorem Chain.map {γ γ' : Type} {Item : Nat → γ → Nat → Prop} {Item' : Nat → γ' → Nat → Prop}
    {f : γ → γ'} {p p' : Nat} {xs : List γ} (chain : Chain Item p xs p')
    (each : ∀ p x p', Item p x p' → Item' p (f x) p') : Chain Item' p (xs.map f) p' := by
  induction chain with
  | nil => exact .nil
  | cons head _ ih => exact .cons (each _ _ _ head) ih

/-- Items that take at least `k` octets each take as many times `k` as they are. -/
theorem Chain.length_le {γ : Type} {Item : Nat → γ → Nat → Prop} {p p' k : Nat} {xs : List γ}
    (chain : Chain Item p xs p') (takes : ∀ q x q', Item q x q' → q + k ≤ q') :
    p + k * xs.length ≤ p' := by
  induction chain with
  | nil => exact Nat.le_refl _
  | cons head _ ih =>
      have first := takes _ _ _ head
      rw [List.length_cons, Nat.mul_succ]
      omega

/-- A chain that starts inside ends inside, if every item does. -/
theorem Chain.inside {γ : Type} {Item : Nat → γ → Nat → Prop} {p p' n : Nat} {xs : List γ}
    (chain : Chain Item p xs p') (start : p ≤ n) (ends : ∀ q x q', Item q x q' → q' ≤ n) :
    p' ≤ n := by
  induction chain with
  | nil => exact start
  | cons head _ ih => exact ih (ends _ _ _ head)

/-- **What a section was read from**: items one behind the other, each as `r` reads it. -/
theorem many_eq_ok : ∀ {n : Nat} {as : List α} {p p' : Nat}, many r n data p = .ok (as, p') ↔
    as.length = n ∧ Chain (fun p a p' => r data p = .ok (a, p')) p as p'
  | 0, as, p, p' => by
      constructor
      · intro read
        obtain ⟨rfl, rfl⟩ := pure_eq_ok.mp read
        exact ⟨rfl, .nil⟩
      · rintro ⟨empty, chain⟩
        obtain rfl := List.length_eq_zero_iff.mp empty
        cases chain
        rfl
  | n + 1, as, p, p' => by
      constructor
      · intro read
        obtain ⟨a, mid, head, read⟩ := bind_eq_ok.mp read
        obtain ⟨rest, mid', tail, read⟩ := bind_eq_ok.mp read
        obtain ⟨rfl, rfl⟩ := pure_eq_ok.mp read
        obtain ⟨length, chain⟩ := many_eq_ok.mp tail
        exact ⟨by rw [List.length_cons, length], .cons head chain⟩
      · rintro ⟨length, chain⟩
        cases chain with
        | nil => cases length
        | cons head chain =>
            have tail := many_eq_ok.mpr ⟨Nat.succ.inj length, chain⟩
            exact bind_eq_ok.mpr ⟨_, _, head, bind_eq_ok.mpr ⟨_, _, tail, rfl⟩⟩

/-- Of the items that stand in `data`, `r` accepts those that are `Good` and no others; it
stops where the item ends, with a value related to it. -/
def Accepts {γ : Type} (r : Reader ε α) (data : List UInt8) (Item : Nat → γ → Nat → Prop)
    (Good : γ → Prop) (R : γ → α → Prop) : Prop :=
  ∀ p x p', Item p x p' →
    (Good x → ∃ a, r data p = .ok (a, p') ∧ R x a) ∧
      (∀ a e, r data p = .ok (a, e) → Good x)

/-- **Repetition**: a section is accepted when all its items are good. -/
theorem Accepts.many {γ : Type} {r : Reader ε α} {data : List UInt8}
    {Item : Nat → γ → Nat → Prop} {Good : γ → Prop} {R : γ → α → Prop}
    (accepts : Accepts r data Item Good R) : ∀ {p : Nat} {xs : List γ} {p' : Nat},
      Chain Item p xs p' →
      ((∀ x ∈ xs, Good x) →
        ∃ as, Reader.many r xs.length data p = .ok (as, p') ∧ List.Forall₂ R xs as) ∧
      (∀ as e, Reader.many r xs.length data p = .ok (as, e) → ∀ x ∈ xs, Good x)
  | _, [], _, .nil => ⟨fun _ => ⟨[], rfl, .nil⟩, by simp⟩
  | _, x :: xs, _, .cons item chain => by
      obtain ⟨reads, only⟩ := accepts _ x _ item
      obtain ⟨readsRest, onlyRest⟩ := accepts.many chain
      constructor
      · intro good
        obtain ⟨a, read, related⟩ := reads (good x List.mem_cons_self)
        obtain ⟨as, readRest, relatedRest⟩ := readsRest fun y member =>
          good y (List.mem_cons_of_mem _ member)
        refine ⟨a :: as, ?_, .cons related relatedRest⟩
        exact bind_eq_ok.mpr ⟨a, _, read, bind_eq_ok.mpr ⟨as, _, readRest, rfl⟩⟩
      · intro as e read
        obtain ⟨a, mid', readFirst, later⟩ := bind_eq_ok.mp read
        have good := only a mid' readFirst
        obtain ⟨a', readFirst', -⟩ := reads good
        obtain ⟨rfl, rfl⟩ : a = a' ∧ mid' = _ := by
          simpa using readFirst.symm.trans readFirst'
        obtain ⟨as', e', readRest, -⟩ := bind_eq_ok.mp later
        exact List.forall_mem_cons.mpr ⟨good, onlyRest as' e' readRest⟩

/-- A section that was read had good items, and ended where they end. -/
theorem Accepts.of_many {γ : Type} {r : Reader ε α} {data : List UInt8}
    {Item : Nat → γ → Nat → Prop} {Good : γ → Prop} {R : γ → α → Prop}
    (accepts : Accepts r data Item Good R) {p p' e : Nat} {xs : List γ} {as : List α}
    (chain : Chain Item p xs p') (read : Reader.many r xs.length data p = .ok (as, e)) :
    (∀ x ∈ xs, Good x) ∧ e = p' ∧ List.Forall₂ R xs as := by
  obtain ⟨reads, only⟩ := accepts.many chain
  have good := only as e read
  obtain ⟨as', read', related⟩ := reads good
  obtain ⟨rfl, rfl⟩ : as = as' ∧ e = p' := by
    simpa using read.symm.trans read'
  exact ⟨good, rfl, related⟩

end Reader

end DnsLigase.Theory.Cursor
