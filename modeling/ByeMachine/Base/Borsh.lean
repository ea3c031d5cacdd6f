import ByeMachine.Base.Bytes
import Mathlib.Data.Fin.VecNotation
import Mathlib.Data.Fintype.Basic
import Mathlib.Data.Nat.Bitwise
import Mathlib.Tactic.FinCases
import Mathlib.Tactic.Ring

/-!
# Reading and writing field after field

A reader walks a byte string and fails where it is too short. It reads a list of
fields as a value when it does so wherever they stand; readers of consecutive
fields compose. A writer appends chunks, and writers compose the same way.
-/

namespace Borsh

open Bytes

variable {ε α β : Type}

-- ---------------------------------------------------------------------------
-- Readers
-- ---------------------------------------------------------------------------

/-- A byte string and how much of it has been read. -/
structure Cursor where
  buf : Bytes
  offset : ℕ

def Cursor.skip (c : Cursor) (n : ℕ) : Cursor := { c with offset := c.offset + n }

abbrev Reader (ε : Type) := StateT Cursor (Except ε)

def take (short : ℕ → Cursor → ε) (n : ℕ) : Reader ε Bytes := fun c =>
  match c.buf.window c.offset n with
  | some bytes => .ok (bytes, c.skip n)
  | none => .error (short n c)

def unsigned (short : ℕ → Cursor → ε) (n : ℕ) : Reader ε ℕ := do
  let bytes ← take short n
  pure (leNat bytes)

def signed (short : ℕ → Cursor → ε) : Reader ε ℤ := do
  let bits ← unsigned short 8
  pure (signed64 bits)

/-- A fixed array of three. -/
def triple (m : Reader ε α) : Reader ε (Fin 3 → α) := do
  let a ← m
  let b ← m
  let c ← m
  pure ![a, b, c]

def times (m : Reader ε α) : ℕ → Reader ε (List α)
  | 0 => pure []
  | n + 1 => do
    let a ← m
    let rest ← times m n
    pure (a :: rest)

/-- Reads these fields as `a` wherever they stand, and stops past them. -/
def Reads (m : Reader ε α) (fields : List Bytes) (a : α) : Prop :=
  ∀ c : Cursor, Stands c.buf c.offset fields → m c = .ok (a, c.skip fields.flatten.length)

namespace Reads

variable {short : ℕ → Cursor → ε} {m : Reader ε α} {f : α → Reader ε β} {a : α} {b : β}
  {field : Bytes} {fields rest : List Bytes}

protected theorem pure : Reads (pure a : Reader ε α) [] a := fun _ _ => rfl

protected theorem bind (hm : Reads m fields a) (hf : Reads (f a) rest b) :
    Reads (m >>= f) (fields ++ rest) b := by
  intro c hstands
  have hrun : (m >>= f) c = f a (c.skip fields.flatten.length) := by
    change (m c >>= fun s => f s.1 s.2) = _
    rw [hm c hstands.take]
    rfl
  rw [hrun, hf _ hstands.drop, List.flatten_append, List.length_append]
  simp only [Cursor.skip, Nat.add_assoc]

theorem cons (hm : Reads m [field] a) (hf : Reads (f a) rest b) :
    Reads (m >>= f) (field :: rest) b := hm.bind hf

theorem map (g : α → β) (hm : Reads m fields a) : Reads (g <$> m) fields (g a) := by
  intro c hstands
  change (m c >>= fun s => .ok (g s.1, s.2)) = _
  rw [hm c hstands]
  rfl

theorem check (hm : Reads m [] a) (hf : Reads (f a) fields b) : Reads (m >>= f) fields b :=
  hm.bind hf

theorem take (field : Bytes) : Reads (take short field.length) [field] field := by
  intro c hstands
  simp [Borsh.take, hstands.1]

theorem take_of_length {n : ℕ} (h : field.length = n) :
    Reads (Borsh.take short n) [field] field := by
  subst h
  exact take field

theorem whole {n : ℕ} (g : Bytes → α) (h : field.length = n) :
    Reads (do let bytes ← Borsh.take short n; pure (g bytes)) [field] (g field) :=
  (take_of_length h).cons .pure

theorem unsigned_mod (n value : ℕ) :
    Reads (unsigned short n) [leBytes n value] (value % 256 ^ n) := by
  rw [← leNat_leBytes_mod]
  exact whole leNat (length_leBytes n value)

theorem unsigned {n value : ℕ} (h : value < 256 ^ n) :
    Reads (Borsh.unsigned short n) [leBytes n value] value := by
  have hread : Reads (Borsh.unsigned short n) _ _ := unsigned_mod n value
  rwa [Nat.mod_eq_of_lt h] at hread

theorem signed {value : ℤ} (h : -2 ^ 63 ≤ value ∧ value < 2 ^ 63) :
    Reads (signed short) [i64Bytes value] value := by
  have hbits : Reads (Borsh.unsigned short 8) [i64Bytes value] _ :=
    whole leNat (length_i64Bytes value)
  have hread := hbits.cons (f := fun bits => pure (signed64 bits)) Reads.pure
  rwa [signed64_i64Bytes h.1 h.2] at hread

theorem triple {g : Fin 3 → α} {part : Fin 3 → Bytes} (h : ∀ i, Reads m [part i] (g i)) :
    Reads (triple m) (List.ofFn part) g := by
  have hread : Reads (Borsh.triple m) [part 0, part 1, part 2] ![g 0, g 1, g 2] :=
    (h 0).cons <| (h 1).cons <| (h 2).cons .pure
  have hall : ![g 0, g 1, g 2] = g := by
    funext i
    fin_cases i <;> rfl
  rw [hall] at hread
  simpa using hread

theorem times {xs : List β} {part : β → List Bytes} {g : β → α}
    (h : ∀ x ∈ xs, Reads m (part x) (g x)) :
    Reads (times m xs.length) (xs.flatMap part) (xs.map g) := by
  induction xs with
  | nil => exact .pure
  | cons x xs ih =>
    have hrest := ih fun y hy => h y (by simp [hy])
    have hlist : Reads (do let rest ← Borsh.times m xs.length; pure (g x :: rest))
        (xs.flatMap part ++ []) (g x :: xs.map g) := hrest.bind .pure
    rw [List.append_nil] at hlist
    exact (h x (by simp)).bind hlist

theorem array {part : α → List Bytes} {n : ℕ} {g : Fin n → α}
    (h : ∀ i, Reads m (part (g i)) (g i)) :
    Reads (Borsh.times m n) ((List.ofFn g).flatMap part) (List.ofFn g) := by
  have helement : ∀ x ∈ List.ofFn g, Reads m (part x) (id x) := by
    intro x hx
    obtain ⟨i, rfl⟩ := List.mem_ofFn.mp hx
    exact h i
  have hread := times helement
  rwa [List.length_ofFn, List.map_id] at hread

theorem mapM {xs : List β} {read : β → Reader ε α} {part : β → List Bytes} {g : β → α}
    (h : ∀ x ∈ xs, Reads (read x) (part x) (g x)) :
    Reads (xs.mapM read) (xs.flatMap part) (xs.map g) := by
  induction xs with
  | nil => exact .pure
  | cons x xs ih =>
    have hrest := ih fun y hy => h y (by simp [hy])
    have hlist : Reads (do let rest ← xs.mapM read; pure (g x :: rest))
        (xs.flatMap part ++ []) (g x :: xs.map g) := hrest.bind .pure
    rw [List.append_nil] at hlist
    rw [List.mapM_cons]
    exact (h x (by simp)).bind hlist

/-- How the bytes are cut into fields is up to the reader. -/
theorem recut {fields' : List Bytes} (h : Reads m fields a)
    (hcut : fields.flatten = fields'.flatten) : Reads m fields' a := by
  intro c hstands
  rw [stands_iff, ← hcut, ← stands_iff] at hstands
  rw [← hcut]
  exact h c hstands

theorem run (h : Reads m fields a) :
    m ⟨fields.flatten, 0⟩ = .ok (a, ⟨fields.flatten, fields.flatten.length⟩) := by
  rw [h ⟨fields.flatten, 0⟩ (stands_flatten fields), Cursor.skip, Nat.zero_add]

end Reads

-- ---------------------------------------------------------------------------
-- Framing
-- ---------------------------------------------------------------------------

def Cursor.rest (c : Cursor) : Bytes := c.buf.drop c.offset

/-- Fails where fewer than `n` bytes are left. -/
def Needs (m : Reader ε α) (n : ℕ) : Prop :=
  ∀ c : Cursor, c.buf.length < c.offset + n → ∃ e, m c = .error e

theorem bind_error {m : Reader ε α} {c : Cursor} {e : ε} (h : m c = .error e)
    (f : α → Reader ε β) : (m >>= f) c = .error e := by
  change (m c >>= fun s => f s.1 s.2) = _
  rw [h]
  rfl

namespace Needs

variable {short : ℕ → Cursor → ε} {m : Reader ε α} {n : ℕ}

theorem take (n : ℕ) : Needs (take short n) n := by
  intro c h
  refine ⟨short n c, ?_⟩
  have hnone : c.buf.window c.offset n = none := if_neg (by omega)
  rw [Borsh.take, hnone]

theorem bind (h : Needs m n) (f : α → Reader ε β) : Needs (m >>= f) n := by
  intro c hc
  obtain ⟨e, he⟩ := h c hc
  exact ⟨e, bind_error he f⟩

theorem map (h : Needs m n) (g : α → β) : Needs (g <$> m) n := by
  intro c hc
  obtain ⟨e, he⟩ := h c hc
  refine ⟨e, ?_⟩
  change (m c >>= fun s => .ok (g s.1, s.2)) = _
  rw [he]
  rfl

theorem unsigned (n : ℕ) : Needs (unsigned short n) n := (take n).bind _

theorem signed : Needs (signed short) 8 := (unsigned 8).bind _

end Needs

/-- Reads these fields as `a`, and fails on bytes that break off within them. -/
structure Frames (m : Reader ε α) (fields : List Bytes) (a : α) : Prop where
  reads : Reads m fields a
  short : ∀ c : Cursor, c.offset ≤ c.buf.length → c.rest <+: fields.flatten →
    c.rest.length < fields.flatten.length → ∃ e, m c = .error e

namespace Frames

variable {m : Reader ε α} {f : α → Reader ε β} {a : α} {b : β} {field : Bytes}
  {fields rest : List Bytes}

protected theorem pure : Frames (pure a : Reader ε α) [] a :=
  ⟨.pure, fun _ _ _ h => absurd h (Nat.not_lt_zero _)⟩

protected theorem bind (hm : Frames m fields a) (hf : Frames (f a) rest b) :
    Frames (m >>= f) (fields ++ rest) b := by
  refine ⟨hm.reads.bind hf.reads, fun c hc hbegins hshort => ?_⟩
  rw [List.flatten_append] at hbegins hshort
  by_cases hfirst : c.rest.length < fields.flatten.length
  · -- The bytes break off within the first fields.
    have hpart : c.rest <+: fields.flatten :=
      List.prefix_of_prefix_length_le hbegins (List.prefix_append _ _) hfirst.le
    obtain ⟨e, he⟩ := hm.short c hc hpart hfirst
    exact ⟨e, bind_error he f⟩
  · obtain ⟨tail, htail⟩ : fields.flatten <+: c.rest :=
      List.prefix_of_prefix_length_le (List.prefix_append _ _) hbegins (by omega)
    have hlength : c.rest.length = c.buf.length - c.offset := List.length_drop
    have hstands : Stands c.buf c.offset fields := by
      rw [stands_iff, window_some]
      refine ⟨by omega, ?_⟩
      change c.rest.take _ = _
      rw [← htail, List.take_left]
    have hskip : (c.skip fields.flatten.length).rest = tail := by
      rw [Cursor.rest, Cursor.skip, ← List.drop_drop]
      change c.rest.drop _ = _
      rw [← htail, List.drop_left]
    have hrun : (m >>= f) c = f a (c.skip fields.flatten.length) := by
      change (m c >>= fun s => f s.1 s.2) = _
      rw [hm.reads c hstands]
      rfl
    rw [← htail] at hbegins hshort
    rw [hrun]
    refine hf.short _ ?_ ?_ ?_
    · simp only [Cursor.skip]
      omega
    · rw [hskip]
      exact (List.prefix_append_right_inj _).mp hbegins
    · rw [hskip]
      simpa using hshort

theorem cons (hm : Frames m [field] a) (hf : Frames (f a) rest b) :
    Frames (m >>= f) (field :: rest) b := hm.bind hf

theorem map (g : α → β) (hm : Frames m fields a) : Frames (g <$> m) fields (g a) := by
  refine ⟨hm.reads.map g, fun c hc hbegins hshort => ?_⟩
  obtain ⟨e, he⟩ := hm.short c hc hbegins hshort
  refine ⟨e, ?_⟩
  change (m c >>= fun s => .ok (g s.1, s.2)) = _
  rw [he]
  rfl

theorem last {g : α → β} (hm : Frames m fields a) :
    Frames (do let x ← m; pure (g x)) fields (g a) := by
  have hframes := hm.bind (f := fun x => pure (g x)) .pure
  rwa [List.append_nil] at hframes

theorem of_needs (hm : Reads m [field] a) (hneeds : Needs m field.length) : Frames m [field] a := by
  refine ⟨hm, fun c hc _ hshort => hneeds c ?_⟩
  rw [List.flatten_singleton, Cursor.rest, List.length_drop] at hshort
  omega

theorem triple {g : Fin 3 → α} {part : Fin 3 → Bytes} (h : ∀ i, Frames m [part i] (g i)) :
    Frames (triple m) (List.ofFn part) g := by
  have hframes : Frames (Borsh.triple m) [part 0, part 1, part 2] ![g 0, g 1, g 2] :=
    (h 0).cons <| (h 1).cons <| (h 2).cons .pure
  have hall : ![g 0, g 1, g 2] = g := by
    funext i
    fin_cases i <;> rfl
  rw [hall] at hframes
  simpa using hframes

theorem recut {fields' : List Bytes} (h : Frames m fields a)
    (hcut : fields.flatten = fields'.flatten) : Frames m fields' a :=
  ⟨h.reads.recut hcut, hcut ▸ h.short⟩

theorem run_append (h : Frames m fields a) (more : Bytes) :
    m ⟨fields.flatten ++ more, 0⟩ =
      .ok (a, ⟨fields.flatten ++ more, fields.flatten.length⟩) := by
  have hstands : Stands (fields.flatten ++ more) 0 fields := by
    rw [stands_iff, window_some]
    exact ⟨by simp, by rw [List.drop_zero, List.take_left]⟩
  rw [h.reads ⟨fields.flatten ++ more, 0⟩ hstands, Cursor.skip, Nat.zero_add]

theorem run_short (h : Frames m fields a) {part : Bytes} (hpart : part <+: fields.flatten)
    (hshort : part.length < fields.flatten.length) : ∃ e, m ⟨part, 0⟩ = .error e :=
  h.short ⟨part, 0⟩ (Nat.zero_le _) hpart hshort

end Frames

theorem lor_shiftLeft {low : ℕ} (high : ℕ) {n : ℕ} (h : low < 2 ^ n) :
    low ||| high <<< n = low + 2 ^ n * high := by
  rw [Nat.lor_comm, ← Nat.shiftLeft_add_eq_or_of_lt h, Nat.shiftLeft_eq]
  ring

-- ---------------------------------------------------------------------------
-- Writers
-- ---------------------------------------------------------------------------

/-- Appends chunks to those written. -/
abbrev Writer (ε : Type) := StateT (List Bytes) (Except ε)

def push (chunk : Bytes) : Writer ε Unit := fun chunks => .ok ((), chunks ++ [chunk])

def build (m : Writer ε Unit) : Except ε Bytes := do
  let (_, chunks) ← m []
  pure chunks.flatten

/-- Appends exactly these chunks. -/
def Writes (m : Writer ε Unit) (fields : List Bytes) : Prop :=
  ∀ chunks, m chunks = .ok ((), chunks ++ fields)

namespace Writes

variable {m m' : Writer ε Unit} {field : Bytes} {fields rest : List Bytes}

theorem push (chunk : Bytes) : Writes (push chunk : Writer ε Unit) [chunk] := fun _ => rfl

theorem nil : Writes (pure () : Writer ε Unit) [] := fun chunks => by
  rw [List.append_nil]
  rfl

theorem bind (hm : Writes m fields) (hm' : Writes m' rest) :
    Writes (do m; m') (fields ++ rest) := by
  intro chunks
  have hrun : (m >>= fun _ => m') chunks = m' (chunks ++ fields) := by
    change (m chunks >>= fun s => m' s.2) = _
    rw [hm chunks]
    rfl
  rw [hrun, hm', List.append_assoc]

theorem cons (hm : Writes m [field]) (hm' : Writes m' rest) :
    Writes (do m; m') (field :: rest) := hm.bind hm'

theorem forM {xs : List β} {write : β → Writer ε Unit} {part : β → List Bytes}
    (h : ∀ x ∈ xs, Writes (write x) (part x)) : Writes (xs.forM write) (xs.flatMap part) := by
  induction xs with
  | nil => exact nil
  | cons x xs ih => exact (h x (by simp)).bind (ih fun y hy => h y (by simp [hy]))

theorem build (h : Writes m fields) : build m = .ok fields.flatten := by
  rw [Borsh.build, h []]
  rfl

end Writes

/-- Appends nothing, whatever was written before. -/
def Fails (m : Writer ε Unit) : Prop := ∀ chunks, ∃ e, m chunks = .error e

namespace Fails

variable {m m' : Writer ε Unit} {fields : List Bytes}

theorem throw (e : ε) : Fails (throw e : Writer ε Unit) := fun _ => ⟨e, rfl⟩

theorem bind (hm : Fails m) : Fails (do m; m') := by
  intro chunks
  obtain ⟨e, he⟩ := hm chunks
  refine ⟨e, ?_⟩
  change (m chunks >>= fun s => m' s.2) = _
  rw [he]
  rfl

theorem after (hm : Writes m fields) (hm' : Fails m') : Fails (do m; m') := by
  intro chunks
  obtain ⟨e, he⟩ := hm' (chunks ++ fields)
  refine ⟨e, ?_⟩
  change (m chunks >>= fun s => m' s.2) = _
  rw [hm chunks]
  exact he

/-- One write that fails is enough where the others fail or write. -/
theorem forM {xs : List β} {write : β → Writer ε Unit} {part : β → List Bytes} {P : β → Prop}
    (hwrites : ∀ x, ¬P x → Writes (write x) (part x)) (hfails : ∀ x, P x → Fails (write x))
    (h : ∃ x ∈ xs, P x) : Fails (xs.forM write) := by
  induction xs with
  | nil => simp at h
  | cons x xs ih =>
    by_cases hx : P x
    · exact (hfails x hx).bind
    · refine after (hwrites x hx) (ih ?_)
      obtain ⟨y, hy, hPy⟩ := h
      rcases List.mem_cons.mp hy with rfl | hy
      · exact absurd hPy hx
      · exact ⟨y, hy, hPy⟩

theorem build (h : Fails m) : ∃ e, build m = .error e := by
  obtain ⟨e, he⟩ := h []
  exact ⟨e, by rw [Borsh.build, he]; rfl⟩

end Fails

/-- Where `fits` holds, what is written is read back as `a`; otherwise nothing is written. -/
structure Conveys {δ : Type} (write : Writer ε Unit) (read : Reader δ α) (fits : Prop) (a : α) :
    Prop where
  reads : fits → ∃ fields, Writes write fields ∧ Reads read fields a
  refuses : ¬fits → Fails write

namespace Conveys

variable {δ : Type} {write write' : Writer ε Unit} {m : Reader δ α} {f : α → Reader δ β}
  {P Q : Prop} {a : α} {b : β}

theorem of_writes {fields : List Bytes} (hw : Writes write fields) (hr : Reads m fields a) :
    Conveys write m True a := ⟨fun _ => ⟨fields, hw, hr⟩, fun h => absurd trivial h⟩

protected theorem bind (h : Conveys write m P a) (h' : Conveys write' (f a) Q b) :
    Conveys (do write; write') (m >>= f) (P ∧ Q) b where
  reads := by
    rintro ⟨hP, hQ⟩
    obtain ⟨fields, hw, hr⟩ := h.reads hP
    obtain ⟨rest, hw', hr'⟩ := h'.reads hQ
    exact ⟨fields ++ rest, hw.bind hw', hr.bind hr'⟩
  refuses := by
    intro hfits
    by_cases hP : P
    · obtain ⟨fields, hw, -⟩ := h.reads hP
      exact .after hw (h'.refuses fun hQ => hfits ⟨hP, hQ⟩)
    · exact (h.refuses hP).bind

theorem map (g : α → β) (h : Conveys write m P a) : Conveys write (g <$> m) P (g a) where
  reads hP := by
    obtain ⟨fields, hw, hr⟩ := h.reads hP
    exact ⟨fields, hw, hr.map g⟩
  refuses := h.refuses

theorem last {g : α → β} (h : Conveys write m P a) :
    Conveys write (do let x ← m; pure (g x)) P (g a) where
  reads hP := by
    obtain ⟨fields, hw, hr⟩ := h.reads hP
    have hlast : Reads (do let x ← m; pure (g x)) (fields ++ []) (g a) := hr.bind .pure
    rw [List.append_nil] at hlast
    exact ⟨fields, hw, hlast⟩
  refuses := h.refuses

theorem cast (h : Conveys write m P a) (hPQ : P ↔ Q) : Conveys write m Q a := propext hPQ ▸ h

theorem build (h : Conveys write m P a) (hP : P) :
    ∃ data r, Borsh.build write = .ok data ∧ m ⟨data, 0⟩ = .ok (a, r) := by
  obtain ⟨fields, hw, hr⟩ := h.reads hP
  exact ⟨_, _, hw.build, hr.run⟩

theorem build_error (h : Conveys write m P a) (hP : ¬P) : ∃ e, Borsh.build write = .error e :=
  (h.refuses hP).build

end Conveys

end Borsh
