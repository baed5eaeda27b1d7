/-
Laws of readers. A reader that succeeds has passed over some bytes, and most
readers answer from these alone: on any vector that holds the same bytes there
and is not shorter, they answer the same (`Local`). A reader of a fixed layout
passes over a count of bytes that is known beforehand (`Takes`). Both carry over
to sequences of readers, so for a header they follow from its fields. Where
failures count too, the outcome is what a count of bytes decides, on vectors of
one size (`Reads`). No reader leaves a cursor behind the end that was not there
before (`Within`).

A reader may also follow another one: it stops where the other stops, fails as
the other fails, and its answer is a function of the other's (`Follows`). What
follows step by step follows up to the end (`Follows.run`).

A reader that is repeated up to the end answers its items one behind the other
(`untilEnd_eq_ok`), provided that each round passes over a byte.
-/
import ManagedImage.Cursor

namespace ManagedImage

theorem Except.bind_eq_ok {ε α β : Type} {x : Except ε α} {f : α → Except ε β} {v : β} :
    (x >>= f) = .ok v ↔ ∃ a, x = .ok a ∧ f a = .ok v := by
  cases x with
  | error e => exact ⟨nofun, fun ⟨_, h, _⟩ => nomatch h⟩
  | ok a =>
    constructor
    · intro h; exact ⟨a, rfl, h⟩
    · rintro ⟨a', h, h'⟩; cases h; exact h'

theorem Except.bind_eq_error {ε α β : Type} {x : Except ε α} {f : α → Except ε β} {e : ε} :
    (x >>= f) = .error e ↔ x = .error e ∨ ∃ a, x = .ok a ∧ f a = .error e := by
  cases x with
  | error e' => simp [bind, Except.bind]
  | ok a => simp [bind, Except.bind]

theorem Except.map_eq_ok {ε α β : Type} {x : Except ε α} {f : α → β} {v : β} :
    f <$> x = .ok v ↔ ∃ a, x = .ok a ∧ f a = v := by
  cases x with
  | error e => exact ⟨nofun, fun ⟨_, h, _⟩ => nomatch h⟩
  | ok a =>
    constructor
    · intro h; exact ⟨a, rfl, Except.ok.inj h⟩
    · rintro ⟨a', h, rfl⟩; cases h; rfl

theorem Except.map_eq_error {ε α β : Type} {x : Except ε α} {f : α → β} {e : ε} :
    f <$> x = .error e ↔ x = .error e := by
  cases x with
  | error e' => simp [Functor.map, Except.map]
  | ok a => simp [Functor.map, Except.map]

theorem Except.toOption_eq_some {ε α : Type} {x : Except ε α} {v : α} :
    x.toOption = some v ↔ x = .ok v := by
  cases x <;> simp [Except.toOption]

/-- A success with what can be checked of it. -/
theorem Except.exists_of_check {ε α : Type} {x : Except ε α} {p : α → Prop} [DecidablePred p]
    (check : x.toOption.any (fun a => decide (p a)) = true) : ∃ a, x = .ok a ∧ p a := by
  cases x with
  | error e => cases check
  | ok a => exact ⟨a, rfl, of_decide_eq_true check⟩

section MapEq

variable {ε α β γ : Type} {x : Except ε α} {y : Except ε β} {f : α → γ} {g : β → γ}

theorem Except.error_of_map_eq (same : x.map f = y.map g) {e : ε} (failed : x = .error e) :
    y = .error e := by
  rw [failed] at same
  cases y with
  | error e' => cases same; rfl
  | ok b => cases same

theorem Except.ok_of_map_eq (same : x.map f = y.map g) {a : α} (found : x = .ok a) :
    ∃ b, y = .ok b ∧ g b = f a := by
  rw [found] at same
  cases y with
  | error e => cases same
  | ok b => exact ⟨b, rfl, (Except.ok.inj same).symm⟩

end MapEq

namespace Bytes

/-- Two vectors hold the same bytes from `start` up to `stop`. -/
def Agree (a b : Bytes) (start stop : Nat) : Prop :=
  ∀ i, start ≤ i → i < stop → a[i]? = b[i]?

namespace Agree

variable {a b : Bytes} {start stop : Nat}

theorem mono {start' stop' : Nat} (h : Agree a b start stop) (low : start ≤ start')
    (high : stop' ≤ stop) : Agree a b start' stop' :=
  fun i l u => h i (Nat.le_trans low l) (Nat.lt_of_lt_of_le u high)

theorem getD (h : Agree a b start stop) {i : Nat} (low : start ≤ i) (high : i < stop) :
    a.getD i 0 = b.getD i 0 := by
  simp only [Array.getD_eq_getD_getElem?, h i low high]

theorem extract (h : Agree a b start stop) (fits : stop ≤ a.size) (fits' : stop ≤ b.size) :
    a.extract start stop = b.extract start stop := by
  apply Array.ext_getElem?
  intro i
  rw [Array.getElem?_extract, Array.getElem?_extract, Nat.min_eq_left fits, Nat.min_eq_left fits']
  split
  · exact h _ (by omega) (by omega)
  · rfl

theorem slice {offset length : Nat} (h : Agree a b offset (offset + length))
    (size : a.size = b.size) : a.slice offset length = b.slice offset length := by
  unfold Bytes.slice
  rw [← size]
  split
  · rw [h.extract (by omega) (by omega)]
  · rfl

end Agree

theorem getElem?_of_inside {data : Bytes} {i : Nat} (inside : i < data.size) :
    data[i]? = some (data.getD i 0) := by
  rw [Array.getD_eq_getD_getElem?, Array.getElem?_eq_getElem inside, Option.getD_some]

theorem getElem?_of_extract {data part : Bytes} {start stop i : Nat}
    (h : part = data.extract start stop) (inside : i < part.size) : part[i]? = data[start + i]? := by
  subst h
  rw [Array.size_extract] at inside
  rw [Array.getElem?_extract, if_pos inside]

theorem leNat_of_extract {data part : Bytes} {start stop i n : Nat}
    (h : part = data.extract start stop) (inside : i + n ≤ part.size) :
    part.leNat i n = data.leNat (start + i) n := by
  induction n generalizing i with
  | zero => rfl
  | succ n ih =>
    have head : part.getD i 0 = data.getD (start + i) 0 := by
      simp only [Array.getD_eq_getD_getElem?, getElem?_of_extract h (show i < part.size by omega)]
    rw [leNat_succ, leNat_succ, head, ih (by omega), Nat.add_assoc]

end Bytes

namespace Reader

variable {α β γ : Type}

/-! ## Running a sequence -/

theorem bind_eq_ok {r : Reader α} {f : α → Reader β} {c c' : Cursor} {v : β} :
    (r >>= f) c = .ok v c' ↔ ∃ a c₁, r c = .ok a c₁ ∧ f a c₁ = .ok v c' := by
  show EStateM.bind r f c = _ ↔ _
  unfold EStateM.bind
  cases r c with
  | ok a c₁ =>
    constructor
    · intro h; exact ⟨a, c₁, rfl, h⟩
    · rintro ⟨a', c', h, h'⟩; cases h; exact h'
  | error e c₁ =>
    constructor
    · intro h; cases h
    · rintro ⟨a', c', h, -⟩; cases h

section

variable {ε σ : Type} {r : EStateM ε σ α} {f : α → EStateM ε σ β} {c c₁ : σ}

theorem bind_of_ok {a : α} (h : r c = .ok a c₁) : (r >>= f) c = f a c₁ := by
  show EStateM.bind r f c = _
  rw [EStateM.bind, h]

theorem bind_of_error {e : ε} (h : r c = .error e c₁) : (r >>= f) c = .error e c₁ := by
  show EStateM.bind r f c = _
  rw [EStateM.bind, h]

end

theorem bind_eq_error {r : Reader α} {f : α → Reader β} {c c' : Cursor} {e : Error} :
    (r >>= f) c = .error e c' ↔
      r c = .error e c' ∨ ∃ a c₁, r c = .ok a c₁ ∧ f a c₁ = .error e c' := by
  cases first : r c with
  | ok a c₁ =>
    rw [bind_of_ok first]
    constructor
    · intro h; exact .inr ⟨a, c₁, rfl, h⟩
    · rintro (h | ⟨a', c₂, h, h'⟩)
      · cases h
      · cases h; exact h'
  | error e' c₁ =>
    rw [bind_of_error first]
    constructor
    · intro h; cases h; exact .inl rfl
    · rintro (h | ⟨a, c₂, h, -⟩)
      · cases h; rfl
      · cases h

theorem pure_eq_ok {a v : α} {c c' : Cursor} : (pure a : Reader α) c = .ok v c' ↔ a = v ∧ c = c' := by
  show EStateM.Result.ok a c = .ok v c' ↔ _
  rw [EStateM.Result.ok.injEq]

theorem map_eq_ok {r : Reader α} {f : α → β} {c c' : Cursor} {v : β} :
    (f <$> r) c = .ok v c' ↔ ∃ a, r c = .ok a c' ∧ f a = v := by
  show (r >>= fun a => pure (f a)) c = .ok v c' ↔ _
  simp only [bind_eq_ok, pure_eq_ok]
  constructor
  · rintro ⟨a, c₁, h, rfl, rfl⟩; exact ⟨a, h, rfl⟩
  · rintro ⟨a, h, rfl⟩; exact ⟨a, c', h, rfl, rfl⟩

theorem ofExcept_eq_ok {x : Except Error α} {v : α} {c c' : Cursor} :
    ofExcept x c = .ok v c' ↔ x = .ok v ∧ c' = c := by
  cases x with
  | ok a =>
    constructor
    · intro h; cases h; exact ⟨rfl, rfl⟩
    · rintro ⟨h, rfl⟩; cases h; rfl
  | error e => exact ⟨nofun, fun h => nomatch h.1⟩

theorem ofExcept_eq_error {x : Except Error α} {c c' : Cursor} {e : Error} :
    ofExcept x c = .error e c' ↔ x = .error e ∧ c' = c := by
  cases x with
  | ok a => exact ⟨nofun, fun h => nomatch h.1⟩
  | error e' =>
    constructor
    · intro h; cases h; exact ⟨rfl, rfl⟩
    · rintro ⟨h, rfl⟩; cases h; rfl

/-- Behind a check for a defect a sequence goes on if there is none. -/
theorem checked_eq_ok {p : Prop} [Decidable p] {d : Defect} {f : α → Reader β} {r : Reader β}
    {c c' : Cursor} {v : β} :
    (if p then malformed d >>= f else r) c = .ok v c' ↔ ¬ p ∧ r c = .ok v c' := by
  by_cases defect : p
  · rw [if_pos defect]
    exact ⟨nofun, fun h => absurd defect h.1⟩
  · rw [if_neg defect, and_iff_right defect]

theorem map_of_error {r : Reader α} {f : α → β} {c c₁ : Cursor} {e : Error}
    (h : r c = .error e c₁) : (f <$> r) c = .error e c₁ :=
  bind_of_error (f := fun a => pure (f a)) h

theorem runAt_eq_ok {r : Reader α} {data : Bytes} {pos : Nat} {v : α} :
    r.runAt data pos = .ok v ↔ ∃ c', r ⟨data, pos⟩ = .ok v c' := by
  unfold runAt
  cases r ⟨data, pos⟩ with
  | ok a c' =>
    constructor
    · intro h; cases h; exact ⟨c', rfl⟩
    · rintro ⟨c, h⟩; cases h; rfl
  | error e c' => exact ⟨nofun, fun ⟨_, h⟩ => nomatch h⟩

theorem runAt_eq_error {r : Reader α} {data : Bytes} {pos : Nat} {e : Error} :
    r.runAt data pos = .error e ↔ ∃ c', r ⟨data, pos⟩ = .error e c' := by
  unfold runAt
  cases r ⟨data, pos⟩ <;> simp

theorem run_eq_ok {r : Reader α} {data : Bytes} {v : α} :
    r.run data = .ok v ↔ ∃ c', r ⟨data, 0⟩ = .ok v c' := runAt_eq_ok

theorem position_ok (c : Cursor) : position c = .ok c.pos c := rfl

theorem get_ok {ε σ : Type} (c : σ) : (get : EStateM ε σ σ) c = .ok c c := rfl

theorem nat_of_fits {n : Nat} {c : Cursor} (fits : c.pos + n ≤ c.data.size) :
    nat n c = .ok (c.data.leNat c.pos n) { c with pos := c.pos + n } := by rw [nat, if_pos fits]

theorem nat_of_lacks {n : Nat} {c : Cursor} (lacks : ¬ c.pos + n ≤ c.data.size) :
    nat n c = .error (.outOfBounds c.pos n c.data.size) c := by rw [nat, if_neg lacks]

theorem u8_of_fits {c : Cursor} (fits : c.pos < c.data.size) :
    u8 c = .ok (c.data.getD c.pos 0) { c with pos := c.pos + 1 } := by
  have field := @nat_of_fits 1 c fits
  rw [Bytes.leNat_succ, Bytes.leNat_zero, Nat.mul_zero, Nat.add_zero] at field
  rw [u8, bind_of_ok field, UInt8.ofNat_toNat]
  rfl

theorem u8_of_lacks {c : Cursor} (lacks : ¬ c.pos < c.data.size) :
    u8 c = .error (.outOfBounds c.pos 1 c.data.size) c := by
  rw [u8, bind_of_error (nat_of_lacks (n := 1) lacks)]

theorem u8_keeps {c c' : Cursor} {byte : UInt8} (h : u8 c = .ok byte c') :
    c.pos < c.data.size ∧ byte = c.data.getD c.pos 0 ∧ c' = { c with pos := c.pos + 1 } := by
  by_cases fits : c.pos < c.data.size
  · rw [u8_of_fits fits] at h; cases h; exact ⟨fits, rfl, rfl⟩
  · rw [u8_of_lacks fits] at h; cases h

theorem u32_keeps {c c' : Cursor} {word : UInt32} (h : u32 c = .ok word c') :
    c.pos + 4 ≤ c.data.size ∧ word = UInt32.ofNat (c.data.leNat c.pos 4) ∧
      c' = { c with pos := c.pos + 4 } := by
  obtain ⟨value, c₁, field, answer⟩ := bind_eq_ok.1 h
  obtain ⟨fits, rfl, rfl⟩ := nat_keeps field
  obtain ⟨rfl, rfl⟩ := pure_eq_ok.1 answer
  exact ⟨fits, rfl, rfl⟩

theorem take_of_fits {n : Nat} {c : Cursor} (fits : n ≤ c.remaining) :
    take n c = .ok (c.data.extract c.pos (c.pos + n)) { c with pos := c.pos + n } := by
  rw [take, if_pos fits]

theorem take_of_lacks {n : Nat} {c : Cursor} (lacks : ¬ n ≤ c.remaining) :
    take n c = .error (.outOfBounds c.pos n c.data.size) c := by rw [take, if_neg lacks]

theorem ensure_of_fits {n : Nat} {c : Cursor} (fits : n ≤ c.remaining) : ensure n c = .ok () c := by
  rw [ensure, if_pos fits]

theorem ensure_of_lacks {n : Nat} {c : Cursor} (lacks : ¬ n ≤ c.remaining) :
    ensure n c = .error (.outOfBounds c.pos n c.data.size) c := by rw [ensure, if_neg lacks]

theorem advance_of_fits {n : Nat} {c : Cursor} (fits : n ≤ c.remaining) :
    advance n c = .ok () { c with pos := c.pos + n } := by rw [advance, if_pos fits]

theorem advance_of_lacks {n : Nat} {c : Cursor} (lacks : ¬ n ≤ c.remaining) :
    advance n c = .error (.outOfBounds c.pos n c.data.size) c := by rw [advance, if_neg lacks]

/-! ## Answers from the bytes passed over -/

/--
A success depends on the bytes passed over and on no other, but for the size of
the vector, which may be larger.
-/
class Local (r : Reader α) : Prop where
  keeps : ∀ {c c' : Cursor} {v : α}, r c = .ok v c' → c'.data = c.data ∧ c.pos ≤ c'.pos
  carries : ∀ {a b : Bytes} {pos : Nat} {v : α} {c' : Cursor}, r ⟨a, pos⟩ = .ok v c' →
    a.size ≤ b.size → a.Agree b pos c'.pos → r ⟨b, pos⟩ = .ok v ⟨b, c'.pos⟩

theorem Local.stays {r : Reader α} [Local r] {data : Bytes} {pos : Nat} {v : α} {c' : Cursor}
    (h : r ⟨data, pos⟩ = .ok v c') : c' = ⟨data, c'.pos⟩ := by
  obtain ⟨same, -⟩ := Local.keeps h
  cases c'
  cases same
  rfl

instance (a : α) : Local (pure a : Reader α) where
  keeps h := by cases h; exact ⟨rfl, Nat.le_refl _⟩
  carries h _ _ := by cases h; rfl

theorem Local.bind {r : Reader α} {f : α → Reader β} (_ : Local r) (_ : ∀ a, Local (f a)) :
    Local (r >>= f) where
  keeps h := by
    obtain ⟨a, c₁, first, second⟩ := bind_eq_ok.1 h
    obtain ⟨data₁, pos₁⟩ := Local.keeps first
    obtain ⟨data₂, pos₂⟩ := Local.keeps second
    exact ⟨data₂.trans data₁, Nat.le_trans pos₁ pos₂⟩
  carries h size agree := by
    obtain ⟨v, ⟨data, pos⟩, first, second⟩ := bind_eq_ok.1 h
    obtain ⟨rfl, pos₁⟩ := Local.keeps first
    obtain ⟨-, pos₂⟩ := Local.keeps second
    have first' := Local.carries first size (agree.mono (Nat.le_refl _) pos₂)
    exact bind_eq_ok.2 ⟨v, _, first', Local.carries second size (agree.mono pos₁ (Nat.le_refl _))⟩

instance {r : Reader α} {f : α → Reader β} [Local r] [∀ a, Local (f a)] : Local (r >>= f) :=
  Local.bind inferInstance inferInstance

instance {r : Reader α} {f : α → β} [Local r] : Local (f <$> r) :=
  inferInstanceAs (Local (r >>= fun a => pure (f a)))

instance {p : Prop} [Decidable p] {r s : Reader α} [Local r] [Local s] :
    Local (if p then r else s) := by split <;> infer_instance

instance (n : Nat) : Local (nat n) where
  keeps h := by obtain ⟨-, -, rfl⟩ := nat_keeps h; exact ⟨rfl, Nat.le_add_right ..⟩
  carries h size agree := by
    obtain ⟨fits, rfl, rfl⟩ := nat_keeps h
    rw [Bytes.leNat_congr agree]
    exact nat_of_fits (Nat.le_trans fits size)

instance (n : Nat) : Local (take n) where
  keeps h := by obtain ⟨-, -, rfl⟩ := take_keeps h; exact ⟨rfl, Nat.le_add_right ..⟩
  carries {a b pos _ _} h size agree := by
    obtain ⟨fits, rfl, rfl⟩ := take_keeps h
    by_cases none : n = 0
    · subst none
      have empty : ∀ data : Bytes, data.extract pos pos = #[] :=
        fun data => Array.extract_eq_empty_of_le (Nat.min_le_left ..)
      rw [take_of_fits (c := ⟨b, pos⟩) (Nat.zero_le _)]
      simp only [Nat.add_zero, empty]
    · have fits : pos + n ≤ a.size := by simp only [Cursor.remaining] at fits; omega
      have enough : n ≤ Cursor.remaining ⟨b, pos⟩ := by simp only [Cursor.remaining]; omega
      rw [take_of_fits enough, Bytes.Agree.extract agree fits (Nat.le_trans fits size)]

instance (n : Nat) : Local (ensure n) where
  keeps h := by cases ensure_keeps h; exact ⟨rfl, Nat.le_refl _⟩
  carries {a b pos _ _} h size _ := by
    have kept := ensure_keeps h
    subst kept
    by_cases fits : n ≤ Cursor.remaining ⟨a, pos⟩
    · exact ensure_of_fits (by simp only [Cursor.remaining] at fits ⊢; omega)
    · rw [ensure_of_lacks fits] at h
      cases h

instance (n : Nat) : Local (advance n) where
  keeps h := by obtain ⟨-, rfl⟩ := advance_keeps h; exact ⟨rfl, Nat.le_add_right ..⟩
  carries h size _ := by
    obtain ⟨fits, rfl⟩ := advance_keeps h
    exact advance_of_fits (by simp only [Cursor.remaining] at fits ⊢; omega)

instance (unit : Nat) : Local (align unit) where
  keeps h := align_keeps h
  carries h size agree := Local.carries (r := advance _) h size agree

instance : Local position where
  keeps h := by cases h; exact ⟨rfl, Nat.le_refl _⟩
  carries h _ _ := by cases h; rfl

instance (d : Defect) : Local (malformed d : Reader α) where
  keeps h := nomatch h
  carries h := nomatch h

instance (e : Error) : Local (throw e : Reader α) where
  keeps h := nomatch h
  carries h := nomatch h

/- A failed check ends the reading, whatever would follow it. -/
instance (priority := 2000) {d : Defect} {f : α → Reader β} : Local (malformed d >>= f) where
  keeps h := nomatch h
  carries h := nomatch h

instance (result : Except Error α) : Local (ofExcept result) := by
  cases result with
  | ok v => exact inferInstanceAs (Local (pure v : Reader α))
  | error e => exact inferInstanceAs (Local (throw e : Reader α))

instance : Local u8 := by unfold u8; infer_instance
instance : Local u16 := by unfold u16; infer_instance
instance : Local u32 := by unfold u32; infer_instance
instance : Local u64 := by unfold u64; infer_instance
instance (n : Nat) : Local (int n) := by unfold int; infer_instance

theorem local_times (r : Reader α) [Local r] (n : Nat) : Local (times r n) := by
  induction n with
  | zero => exact inferInstanceAs (Local (pure [] : Reader (List α)))
  | succ n ih => unfold times; infer_instance

instance {r : Reader α} [Local r] {n : Nat} : Local (times r n) := local_times r n

/-! ## Cursors within their vector -/

/-- A success from a cursor within its vector leaves the cursor there. -/
class Within (r : Reader α) : Prop where
  inside : ∀ {c c' : Cursor} {v : α}, r c = .ok v c' → c.InBounds → c'.InBounds

theorem Within.bind {r : Reader α} {f : α → Reader β} (_ : Within r) (_ : ∀ a, Within (f a)) :
    Within (r >>= f) where
  inside h within := by
    obtain ⟨a, c₁, first, second⟩ := bind_eq_ok.1 h
    exact Within.inside second (Within.inside first within)

instance (a : α) : Within (pure a : Reader α) where
  inside h within := by cases h; exact within

instance {r : Reader α} {f : α → Reader β} [Within r] [∀ a, Within (f a)] : Within (r >>= f) :=
  Within.bind inferInstance inferInstance

instance {r : Reader α} {f : α → β} [Within r] : Within (f <$> r) :=
  inferInstanceAs (Within (r >>= fun a => pure (f a)))

instance {p : Prop} [Decidable p] {r s : Reader α} [Within r] [Within s] :
    Within (if p then r else s) := by split <;> infer_instance

instance (n : Nat) : Within (nat n) where
  inside h _ := by obtain ⟨fits, -, rfl⟩ := nat_keeps h; exact fits

instance (n : Nat) : Within (take n) where
  inside h within := by
    obtain ⟨fits, -, rfl⟩ := take_keeps h
    simp only [Cursor.InBounds, Cursor.remaining] at within fits ⊢
    omega

instance (n : Nat) : Within (ensure n) where
  inside h within := by cases ensure_keeps h; exact within

instance (n : Nat) : Within (advance n) where
  inside h within := by
    obtain ⟨fits, rfl⟩ := advance_keeps h
    simp only [Cursor.InBounds, Cursor.remaining] at within fits ⊢
    omega

instance (unit : Nat) : Within (align unit) where
  inside h within := Within.inside (r := advance _) h within

instance : Within position where
  inside h within := by cases h; exact within

instance (d : Defect) : Within (malformed d : Reader α) where
  inside h := nomatch h

instance (e : Error) : Within (throw e : Reader α) where
  inside h := nomatch h

instance (result : Except Error α) : Within (ofExcept result) where
  inside h within := by cases result <;> cases h; exact within

instance : Within u8 := by unfold u8; infer_instance
instance : Within u16 := by unfold u16; infer_instance
instance : Within u32 := by unfold u32; infer_instance
instance : Within u64 := by unfold u64; infer_instance
instance (n : Nat) : Within (int n) := by unfold int; infer_instance

theorem within_times (r : Reader α) [Within r] (n : Nat) : Within (times r n) := by
  induction n with
  | zero => exact inferInstanceAs (Within (pure [] : Reader (List α)))
  | succ n ih => unfold times; infer_instance

instance {r : Reader α} [Within r] {n : Nat} : Within (times r n) := within_times r n

/-! ## Counts of bytes known beforehand -/

/-- A success passes over `n` bytes, whatever they are. -/
class Takes (r : Reader α) (n : outParam Nat) : Prop where
  moves : ∀ {c c' : Cursor} {v : α}, r c = .ok v c' → c'.pos = c.pos + n

theorem Takes.of_eq {r : Reader α} {m n : Nat} [Takes r m] (h : m = n) : Takes r n :=
  h ▸ inferInstance

instance (a : α) : Takes (pure a : Reader α) 0 where
  moves h := by cases h; rfl

instance {r : Reader α} {f : α → Reader β} {m n : Nat} [Takes r m] [∀ a, Takes (f a) n] :
    Takes (r >>= f) (m + n) where
  moves h := by
    obtain ⟨a, c₁, first, second⟩ := bind_eq_ok.1 h
    rw [Takes.moves second, Takes.moves first, Nat.add_assoc]

instance (n : Nat) : Takes (nat n) n where
  moves h := by obtain ⟨-, -, rfl⟩ := nat_keeps h; rfl

instance (n : Nat) : Takes (take n) n where
  moves h := by obtain ⟨-, -, rfl⟩ := take_keeps h; rfl

instance (n : Nat) : Takes (ensure n) 0 where
  moves h := by cases ensure_keeps h; rfl

instance (n : Nat) : Takes (advance n) n where
  moves h := by obtain ⟨-, rfl⟩ := advance_keeps h; rfl

instance : Takes position 0 where
  moves h := by cases h; rfl

instance (result : Except Error α) : Takes (ofExcept result) 0 where
  moves h := by cases result <;> cases h; rfl

instance : Takes u8 1 := by unfold u8; exact Takes.of_eq rfl
instance : Takes u16 2 := by unfold u16; exact Takes.of_eq rfl
instance : Takes u32 4 := by unfold u32; exact Takes.of_eq rfl

/- A check passes over nothing: where it fails, nothing is answered. -/
instance {p : Prop} [Decidable p] {d : Defect} {r : Reader α} {n : Nat} [Takes r n] :
    Takes (if p then malformed d else r) n where
  moves h := by
    split at h
    · cases h
    · exact Takes.moves h

instance (priority := 2000) {p : Prop} [Decidable p] {d : Defect} {f : α → Reader β} {r : Reader β}
    {n : Nat} [Takes r n] : Takes (if p then malformed d >>= f else r) n where
  moves h := by
    split at h
    · cases h
    · exact Takes.moves h

theorem takes_times (r : Reader α) {m : Nat} [Takes r m] (n : Nat) : Takes (times r n) (n * m) := by
  induction n with
  | zero => rw [Nat.zero_mul]; exact inferInstanceAs (Takes (pure [] : Reader (List α)) 0)
  | succ n ih =>
    unfold times
    exact Takes.of_eq (by rw [Nat.add_zero, Nat.succ_mul, Nat.add_comm])

instance {r : Reader α} {m n : Nat} [Takes r m] : Takes (times r n) (n * m) := takes_times r n

theorem length_of_times {r : Reader α} {n : Nat} {c c' : Cursor} {l : List α}
    (h : times r n c = .ok l c') : l.length = n := by
  induction n generalizing c l with
  | zero => obtain ⟨rfl, -⟩ := pure_eq_ok.1 h; rfl
  | succ n ih =>
    obtain ⟨v, c₁, -, h⟩ := bind_eq_ok.1 h
    obtain ⟨later, c₂, rest, h⟩ := bind_eq_ok.1 h
    obtain ⟨rfl, rfl⟩ := pure_eq_ok.1 h
    rw [List.length_cons, ih rest]

/-! ## Outcomes from a count of bytes -/

/-- What a reader answers from a position and where it stops, or its error. -/
def outcome (r : Reader α) (data : Bytes) (pos : Nat) : Except Error (α × Nat) :=
  match r ⟨data, pos⟩ with
  | .ok value c => .ok (value, c.pos)
  | .error error _ => .error error

theorem outcome_of_ok {r : Reader α} {data : Bytes} {pos : Nat} {v : α} {c : Cursor}
    (h : r ⟨data, pos⟩ = .ok v c) : outcome r data pos = .ok (v, c.pos) := by rw [outcome, h]

theorem outcome_of_error {r : Reader α} {data : Bytes} {pos : Nat} {e : Error} {c : Cursor}
    (h : r ⟨data, pos⟩ = .error e c) : outcome r data pos = .error e := by rw [outcome, h]

theorem runAt_eq_outcome (r : Reader α) (data : Bytes) (pos : Nat) :
    r.runAt data pos = (outcome r data pos).map Prod.fst := by
  unfold runAt outcome
  cases r ⟨data, pos⟩ <;> rfl

theorem outcome_bind (r : Reader α) [Local r] (f : α → Reader β) (data : Bytes) (pos : Nat) :
    outcome (r >>= f) data pos =
      (outcome r data pos).bind fun (v, stop) => outcome (f v) data stop := by
  cases first : r ⟨data, pos⟩ with
  | ok v c =>
    obtain ⟨rfl, -⟩ := Local.keeps first
    rw [outcome_of_ok first, outcome, bind_of_ok first]
    rfl
  | error e c =>
    rw [outcome_of_error first, outcome, bind_of_error first]
    rfl

/-- On vectors of one size, the outcome depends on the next `n` bytes only, failure or not. -/
def Reads (r : Reader α) (n : Nat) : Prop :=
  ∀ ⦃a b : Bytes⦄ ⦃pos : Nat⦄, a.size = b.size → a.Agree b pos (pos + n) →
    outcome r a pos = outcome r b pos

theorem reads_pure (v : α) (n : Nat) : Reads (pure v : Reader α) n :=
  fun _ _ _ _ _ => rfl

theorem reads_throw (e : Error) (n : Nat) : Reads (throw e : Reader α) n :=
  fun _ _ _ _ _ => rfl

theorem reads_nat (n : Nat) : Reads (nat n) n := by
  intro a b pos size agree
  by_cases fits : pos + n ≤ a.size
  · rw [outcome_of_ok (nat_of_fits (c := ⟨a, pos⟩) fits),
      outcome_of_ok (nat_of_fits (c := ⟨b, pos⟩) (size ▸ fits)), Bytes.leNat_congr agree]
  · rw [outcome_of_error (nat_of_lacks (c := ⟨a, pos⟩) fits),
      outcome_of_error (nat_of_lacks (c := ⟨b, pos⟩) (size ▸ fits)), size]

theorem reads_take {n : Nat} (pos : 0 < n) : Reads (take n) n := by
  intro a b start size agree
  by_cases fits : n ≤ a.size - start
  · have fits' : n ≤ b.size - start := by omega
    rw [outcome_of_ok (take_of_fits (c := ⟨a, start⟩) fits),
      outcome_of_ok (take_of_fits (c := ⟨b, start⟩) fits'),
      agree.extract (by omega) (by omega)]
  · have lacks : ¬ n ≤ b.size - start := by omega
    rw [outcome_of_error (take_of_lacks (c := ⟨a, start⟩) fits),
      outcome_of_error (take_of_lacks (c := ⟨b, start⟩) lacks), size]

/-- The bytes of a sequence are those of its readers. -/
theorem Reads.bind {r : Reader α} [Local r] {m n : Nat} [Takes r m] {f : α → Reader β}
    (first : Reads r m) (later : ∀ v, Reads (f v) n) : Reads (r >>= f) (m + n) := by
  intro a b pos size agree
  have same := first size (agree.mono (Nat.le_refl _) (by omega))
  rw [outcome_bind, outcome_bind, ← same]
  cases read : r ⟨a, pos⟩ with
  | ok v c =>
    rw [outcome_of_ok read, Takes.moves read]
    exact later v size (agree.mono (Nat.le_add_right ..) (by simp only; omega))
  | error e c => rw [outcome_of_error read]; rfl

theorem reads_u8 : Reads u8 1 := Reads.bind (n := 0) (reads_nat 1) fun _ => reads_pure _ 0
theorem reads_u16 : Reads u16 2 := Reads.bind (n := 0) (reads_nat 2) fun _ => reads_pure _ 0
theorem reads_u32 : Reads u32 4 := Reads.bind (n := 0) (reads_nat 4) fun _ => reads_pure _ 0

/-! ## One reader behind another -/

/-- Stops where `r` stops, fails as `r` fails, and answers `f` of what `r` answers. -/
structure Follows (f : α → β) (s : Reader β) (r : Reader α) (c : Cursor) : Prop where
  answers : ∀ {v : α} {c' : Cursor}, r c = .ok v c' → s c = .ok (f v) c'
  fails : ∀ {e : Error} {c' : Cursor}, r c = .error e c' → ∃ c'', s c = .error e c''

namespace Follows

variable {f : α → β} {s s' : Reader β} {r r' : Reader α} {c c₁ : Cursor}

theorem of_ok {v : α} {c' : Cursor} (hr : r c = .ok v c') (hs : s c = .ok (f v) c') :
    Follows f s r c where
  answers h := by rw [hr] at h; cases h; exact hs
  fails h := by rw [hr] at h; cases h

theorem of_error {e : Error} {c' c'' : Cursor} (hr : r c = .error e c') (hs : s c = .error e c'') :
    Follows f s r c where
  answers h := by rw [hr] at h; cases h
  fails h := by rw [hr] at h; cases h; exact ⟨c'', hs⟩

theorem answer (f : α → β) (v : α) (c : Cursor) : Follows f (pure (f v)) (pure v) c :=
  of_ok rfl rfl

/-- Following is a matter of the two outcomes only. -/
theorem of_outcomes (hr : r c = r' c₁) (hs : s c = s' c₁) (h : Follows f s' r' c₁) :
    Follows f s r c where
  answers h' := hs ▸ h.answers (hr ▸ h')
  fails h' := hs ▸ h.fails (hr ▸ h')

/-- Two sequences that begin with the same reader. -/
theorem bind_same {first : Reader γ} {s : γ → Reader β} {r : γ → Reader α}
    (h : ∀ {v : γ} {c' : Cursor}, first c = .ok v c' → Follows f (s v) (r v) c') :
    Follows f (first >>= s) (first >>= r) c := by
  cases first_eq : first c with
  | ok v c' => exact of_outcomes (bind_of_ok first_eq) (bind_of_ok first_eq) (h first_eq)
  | error e c' => exact of_error (bind_of_error first_eq) (bind_of_error first_eq)

/-- One more step on both sides. -/
theorem bind {δ : Type} {s : Reader β} {r : Reader α} {g : γ → δ} {s' : β → Reader δ}
    {r' : α → Reader γ} (h : Follows f s r c)
    (h' : ∀ {v : α} {c' : Cursor}, r c = .ok v c' → Follows g (s' (f v)) (r' v) c') :
    Follows g (s >>= s') (r >>= r') c := by
  cases first_eq : r c with
  | ok v c' =>
    exact of_outcomes (bind_of_ok first_eq) (bind_of_ok (h.answers first_eq)) (h' first_eq)
  | error e c' =>
    obtain ⟨c'', failed⟩ := h.fails first_eq
    exact of_error (bind_of_error first_eq) (bind_of_error failed)

theorem collect (h : ∀ c, Follows f s r c) (fuel : Nat) (seen : Array α) (c : Cursor) :
    Follows (Array.map f) (collect s fuel (seen.map f)) (collect r fuel seen) c := by
  induction fuel generalizing seen c with
  | zero => exact answer (Array.map f) seen c
  | succ fuel ih =>
    unfold Reader.collect
    refine bind_same fun {v c'} _ => ?_
    by_cases more : v.hasMore = true
    · simp only [more, if_true]
      refine (h c').bind fun {a c₁} _ => ?_
      rw [← Array.map_push]
      exact ih (seen.push a) c₁
    · simp only [more]
      exact answer (Array.map f) seen c'

theorem untilEnd (h : ∀ c, Follows f s r c) (c : Cursor) :
    Follows (List.map f) (untilEnd s) (untilEnd r) c := by
  unfold Reader.untilEnd
  refine bind_same fun {v c'} _ => ?_
  have all := collect h v.remaining #[] c'
  rw [Array.map_empty] at all
  refine all.bind fun {l c₁} _ => ?_
  rw [Array.toList_map]
  exact answer (List.map f) l.toList c₁

/-- What follows everywhere gives the same errors, and answers made from the other's. -/
theorem run (h : ∀ c, Follows f s r c) (data : Bytes) :
    s.run data = (r.run data).map f := by
  have first := h ⟨data, 0⟩
  unfold Reader.run runAt
  cases outcome : r ⟨data, 0⟩ with
  | ok v c' => rw [first.answers outcome]; rfl
  | error e c' =>
    obtain ⟨c'', failed⟩ := first.fails outcome
    rw [failed]; rfl

end Follows

/-! ## Repeating a reader -/

/-- What a repetition answers was read from the vector, item by item. -/
theorem mem_collect {r : Reader α} [Local r] {fuel : Nat} {seen l : Array α} {c c' : Cursor} {a : α}
    (h : collect r fuel seen c = .ok l c') (mem : a ∈ l) :
    a ∈ seen ∨ ∃ pos c₂, r ⟨c.data, pos⟩ = .ok a c₂ := by
  induction fuel generalizing seen c with
  | zero =>
    obtain ⟨rfl, -⟩ := pure_eq_ok.1 h
    exact .inl mem
  | succ fuel ih =>
    rw [collect, bind_of_ok (get_ok c)] at h
    split at h
    · obtain ⟨item, ⟨data, pos⟩, first, later⟩ := bind_eq_ok.1 h
      obtain ⟨rfl, -⟩ := Local.keeps first
      rcases ih later with before | behind
      · rcases Array.mem_push.1 before with before | rfl
        · exact .inl before
        · exact .inr ⟨c.pos, _, first⟩
      · exact .inr behind
    · obtain ⟨rfl, -⟩ := pure_eq_ok.1 h
      exact .inl mem

theorem mem_of_times {r : Reader α} {n : Nat} {c c' : Cursor} {l : List α} {a : α}
    (h : times r n c = .ok l c') (mem : a ∈ l) : ∃ c₁ c₂, r c₁ = .ok a c₂ := by
  induction n generalizing c l with
  | zero =>
    obtain ⟨rfl, -⟩ := pure_eq_ok.1 h
    cases mem
  | succ n ih =>
    obtain ⟨v, c₁, first, h⟩ := bind_eq_ok.1 h
    obtain ⟨later, c₂, rest, h⟩ := bind_eq_ok.1 h
    obtain ⟨rfl, rfl⟩ := pure_eq_ok.1 h
    rcases List.mem_cons.1 mem with rfl | mem
    · exact ⟨c, c₁, first⟩
    · exact ih rest mem

theorem mem_of_untilEnd {r : Reader α} [Local r] {l : List α} {data : Bytes} {a : α}
    (h : (untilEnd r).run data = .ok l) (mem : a ∈ l) : ∃ pos c', r ⟨data, pos⟩ = .ok a c' := by
  obtain ⟨c', h⟩ := run_eq_ok.1 h
  rw [untilEnd, bind_of_ok (get_ok _)] at h
  obtain ⟨items, c₁, all, answer⟩ := bind_eq_ok.1 h
  obtain ⟨rfl, -⟩ := pure_eq_ok.1 answer
  rcases mem_collect all (Array.mem_toList_iff.1 mem) with none | there
  · exact absurd none (Array.not_mem_empty a)
  · exact there

/-- A success passes over at least one byte of the vector. -/
class Advances (r : Reader α) : Prop where
  forward : ∀ {c c' : Cursor} {v : α}, r c = .ok v c' → c'.data = c.data ∧ c.pos < c'.pos

/-- The items that a reader answers one behind the other, up to the end. -/
inductive ReadsOn (r : Reader α) : Cursor → List α → Prop where
  | finish {c : Cursor} (past : c.hasMore = false) : ReadsOn r c []
  | step {c c' : Cursor} {v : α} {later : List α} (more : c.hasMore = true)
      (first : r c = .ok v c') (rest : ReadsOn r c' later) : ReadsOn r c (v :: later)

theorem readsOn_of_collect {r : Reader α} [Advances r] {fuel : Nat} {seen l : Array α}
    {c c' : Cursor} (h : collect r fuel seen c = .ok l c') (enough : c.data.size ≤ c.pos + fuel) :
    ∃ later, l.toList = seen.toList ++ later ∧ ReadsOn r c later := by
  induction fuel generalizing seen c with
  | zero =>
    obtain ⟨rfl, -⟩ := pure_eq_ok.1 h
    exact ⟨[], by simp, .finish (by simpa [Cursor.hasMore] using enough)⟩
  | succ fuel ih =>
    rw [collect, bind_of_ok (get_ok c)] at h
    split at h
    · next more =>
      obtain ⟨v, c₁, first, rest⟩ := bind_eq_ok.1 h
      obtain ⟨data, forward⟩ := Advances.forward first
      obtain ⟨later, all, on⟩ := ih rest (by rw [data]; omega)
      exact ⟨v :: later, by simpa using all, .step more first on⟩
    · next past =>
      obtain ⟨rfl, -⟩ := pure_eq_ok.1 h
      exact ⟨[], by simp, .finish (by simpa using past)⟩

theorem readsOn_of_untilEnd {r : Reader α} [Advances r] {data : Bytes} {l : List α}
    (h : (untilEnd r).run data = .ok l) : ReadsOn r ⟨data, 0⟩ l := by
  obtain ⟨c', h⟩ := run_eq_ok.1 h
  rw [untilEnd, bind_of_ok (get_ok _)] at h
  obtain ⟨items, c₁, all, answer⟩ := bind_eq_ok.1 h
  obtain ⟨rfl, -⟩ := pure_eq_ok.1 answer
  obtain ⟨later, same, on⟩ := readsOn_of_collect all (by simp [Cursor.remaining])
  rw [same]
  exact on

theorem collect_of_readsOn {r : Reader α} [Advances r] {c : Cursor} {later : List α}
    (on : ReadsOn r c later) {fuel : Nat} (enough : c.data.size ≤ c.pos + fuel) (seen : Array α) :
    ∃ l c', collect r fuel seen c = .ok l c' ∧ l.toList = seen.toList ++ later := by
  induction on generalizing fuel seen with
  | @finish c past =>
    refine ⟨seen, c, ?_, (List.append_nil _).symm⟩
    cases fuel with
    | zero => rfl
    | succ fuel =>
      rw [collect, bind_of_ok (get_ok c), past]
      rfl
  | @step c c' v later more first rest ih =>
    obtain ⟨data, forward⟩ := Advances.forward first
    cases fuel with
    | zero =>
      have before : c.pos < c.data.size := by simpa [Cursor.hasMore] using more
      omega
    | succ fuel =>
      obtain ⟨l, c'', all, same⟩ := @ih fuel (by rw [data]; omega) (seen.push v)
      refine ⟨l, c'', ?_, by simpa using same⟩
      rw [collect, bind_of_ok (get_ok c), if_pos more, bind_of_ok first]
      exact all

/-- Repeating a reader up to the end succeeds on the items that stand one behind the other. -/
theorem untilEnd_eq_ok {r : Reader α} [Advances r] {data : Bytes} {l : List α} :
    (untilEnd r).run data = .ok l ↔ ReadsOn r ⟨data, 0⟩ l := by
  refine ⟨readsOn_of_untilEnd, fun on => ?_⟩
  have enough : data.size ≤ 0 + Cursor.remaining ⟨data, 0⟩ := by simp [Cursor.remaining]
  obtain ⟨items, c', all, same⟩ := collect_of_readsOn on enough #[]
  refine run_eq_ok.2 ⟨c', ?_⟩
  rw [untilEnd, bind_of_ok (get_ok _), bind_of_ok all, same]
  rfl

end Reader

end ManagedImage
