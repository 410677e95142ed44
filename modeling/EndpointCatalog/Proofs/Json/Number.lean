import EndpointCatalog.Json.Number
import EndpointCatalog.Json.Printer
import EndpointCatalog.Proofs.Text.Numeral

namespace EndpointCatalog.Json.Number

open Text.Numeral

variable {cs ds rest : List Char} {n : Nat}

def Ends (rest : List Char) : Prop :=
  ∀ c ∈ rest.head?, c.isDigit = false ∧ c ≠ '.' ∧ c ≠ 'e' ∧ c ≠ 'E'

theorem digitsOf?_append (hn : ds ≠ []) (hd : ∀ c ∈ ds, c.isDigit = true)
    (hr : ∀ c ∈ rest.head?, c.isDigit = false) : digitsOf? (ds ++ rest) = some (ds, rest) := by
  have ht : rest.takeWhile Char.isDigit = [] := by
    cases rest with
    | nil => rfl
    | cons c rest => rw [List.takeWhile_cons, hr c rfl, if_neg Bool.false_ne_true]
  have hw : rest.dropWhile Char.isDigit = rest := by
    cases rest with
    | nil => rfl
    | cons c rest => rw [List.dropWhile_cons, hr c rfl, if_neg Bool.false_ne_true]
  rw [digitsOf?, List.takeWhile_append_of_pos hd, List.dropWhile_append_of_pos hd, ht, hw,
    List.append_nil, if_neg (mt List.isEmpty_iff.mp hn)]

theorem whole?_append (n : Nat) (hr : Ends rest) :
    whole? (Nat.toDigits 10 n ++ rest) = some (Nat.toDigits 10 n, rest) := by
  rw [whole?, digitsOf?_append Nat.toDigits_ne_nil (isDigit_toDigits n) fun c hc => (hr c hc).1,
    Option.filter_some, if_pos]
  by_cases hn : n = 0
  · subst hn
    rfl
  · have hh := head?_toDigits (Nat.pos_of_ne_zero hn)
    rw [Bool.or_eq_true, bne_iff_ne]
    exact .inl hh

theorem fraction?_of_ends (hr : Ends rest) : fraction? rest = some (none, rest) := by
  cases rest with
  | nil => rfl
  | cons c rest =>
    have hc := (hr c rfl).2.1
    rw [fraction?]
    rintro cs ⟨⟩
    exact hc rfl

theorem exponent?_of_ends (hr : Ends rest) : exponent? rest = some (none, rest) := by
  cases rest with
  | nil => rfl
  | cons c rest =>
    obtain ⟨-, -, he, hE⟩ := hr c rfl
    rw [exponent?, if_neg (not_or.mpr ⟨he, hE⟩)]

/-- Whether 64 bits hold a number, with a sign or without one. -/
def IsHeld (n : Int) : Prop := -(capacity 63 : Int) ≤ n ∧ n < bound

theorem read?_of_sign {negative : Bool} (hs : sign cs = (negative, Nat.toDigits 10 n ++ rest))
    (hr : Ends rest) : read? cs =
      (Written.value? ⟨negative, Nat.toDigits 10 n, none, none⟩).map (·, rest) := by
  rw [read?, hs]
  dsimp only [bind, pure]
  rw [whole?_append n hr, Option.bind_some, fraction?_of_ends hr, Option.bind_some,
    exponent?_of_ends hr, Option.bind_some]
  exact Option.map_eq_bind.symm

theorem value?_negative (h : 0 < n ∧ n ≤ capacity 63) :
    Written.value? ⟨true, Nat.toDigits 10 n, none, none⟩ = some (.integer (-n)) := by
  rw [Written.value?, Written.integer?, digits?_toDigits]
  dsimp only
  rw [if_pos rfl, if_pos h]

theorem value?_natural (h : n < bound) :
    Written.value? ⟨false, Nat.toDigits 10 n, none, none⟩ = some (.integer n) := by
  rw [Written.value?, Written.integer?, digits?_toDigits]
  dsimp only
  rw [if_neg Bool.false_ne_true, if_pos h]

theorem sign_toDigits (n : Nat) (rest : List Char) :
    sign (Nat.toDigits 10 n ++ rest) = (false, Nat.toDigits 10 n ++ rest) := by
  obtain ⟨c, cs, hc, hd⟩ := exists_toDigits_eq_cons n
  rw [hc, List.cons_append, sign]
  rintro ds ⟨⟩
  cases hd

theorem read?_writeInteger {n : Int} (h : IsHeld n) (hr : Ends rest) :
    read? (writeInteger n ++ rest) = some (.integer n, rest) := by
  obtain ⟨hl, hu⟩ := h
  rw [writeInteger]
  split
  · have ha : -(n.natAbs : Int) = n := by omega
    have hs : sign (['-'] ++ Nat.toDigits 10 n.natAbs ++ rest) =
        (true, Nat.toDigits 10 n.natAbs ++ rest) := rfl
    rw [read?_of_sign hs hr, value?_negative (by omega), ha]
    rfl
  · have ha : (n.natAbs : Int) = n := by omega
    rw [List.nil_append, read?_of_sign (sign_toDigits _ _) hr, value?_natural (by omega), ha]
    rfl

theorem isHeld_of_integer? {w : Written} {n : Int} (h : w.integer? = some n) : IsHeld n := by
  rw [Written.integer?] at h
  split at h
  · split at h
    · split at h
      · obtain rfl := Option.some.inj h
        exact ⟨by omega, by omega⟩
      · cases h
    · split at h
      · rename_i hn
        obtain rfl := Option.some.inj h
        exact ⟨by omega, Int.ofNat_lt.mpr hn⟩
      · cases h
  · cases h

inductive IsNumber : Value → Prop
  | integer {n : Int} (h : IsHeld n) : IsNumber (.integer n)
  | float (x : Float) : IsNumber (.float x)

theorem isNumber_of_value? {w : Written} {v : Value} (h : w.value? = some v) : IsNumber v := by
  rw [Written.value?] at h
  split at h
  · rename_i n hn
    obtain rfl := Option.some.inj h
    exact .integer (isHeld_of_integer? hn)
  · obtain ⟨x, -, rfl⟩ := Option.map_eq_some_iff.mp h
    exact .float x

theorem isNumber_of_read? {v : Value} (h : read? cs = some (v, rest)) : IsNumber v := by
  rw [read?] at h
  obtain ⟨whole, -, h⟩ := Option.bind_eq_some_iff.mp h
  obtain ⟨part, -, h⟩ := Option.bind_eq_some_iff.mp h
  obtain ⟨exponent, -, h⟩ := Option.bind_eq_some_iff.mp h
  obtain ⟨w, hw, h⟩ := Option.bind_eq_some_iff.mp h
  obtain ⟨rfl, -⟩ := Prod.mk.inj (Option.some.inj h)
  exact isNumber_of_value? hw

end EndpointCatalog.Json.Number
