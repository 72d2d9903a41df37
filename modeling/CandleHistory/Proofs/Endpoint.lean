import CandleHistory.Exchange.Client
import CandleHistory.Settings.Settings
import Mathlib.Data.List.DropRight
import Mathlib.Data.List.Forall2

/-!
Which address of the exchange the settings come to. A variable has the value that the environment
gives it, and only if it gives none the value that stands in the file. An address among the
variables goes before everything else, the flag of the command line included; without one, the flag
or the variable for the test exchange decides between the usual two addresses.
-/

namespace CandleHistory

namespace Text

theorem toNat_toUpper {letter : Char} (h : 'a' ≤ letter ∧ letter ≤ 'z') :
    letter.toUpper.toNat = letter.toNat - 32 := by
  have hlow : 97 ≤ letter.val.toNat := h.1
  have hhigh : letter.val.toNat ≤ 122 := h.2
  unfold Char.toUpper
  split
  case isTrue =>
    change (letter.val + 4294967264).toNat = letter.val.toNat - 32
    rw [UInt32.toNat_add]
    change (letter.val.toNat + 4294967264) % 4294967296 = _
    omega
  case isFalse hnot => exact absurd h hnot

theorem toNat_toLower (c : Char) :
    c.toLower.toNat = if 65 ≤ c.toNat ∧ c.toNat ≤ 90 then c.toNat + 32 else c.toNat := by
  unfold Char.toLower
  split
  case isTrue h =>
    have hhigh : c.val.toNat ≤ 90 := h.2
    have hcapital : 65 ≤ c.toNat ∧ c.toNat ≤ 90 := h
    rw [if_pos hcapital]
    change (c.val + 32).toNat = c.val.toNat + 32
    rw [UInt32.toNat_add]
    change (c.val.toNat + 32) % 4294967296 = _
    omega
  case isFalse h => exact (if_neg h).symm

/-- A letter from `a` to `z` is the lower case of itself and of its capital only. -/
theorem toLower_eq_iff {c letter : Char} (h : 'a' ≤ letter ∧ letter ≤ 'z') :
    c.toLower = letter ↔ c = letter ∨ c = letter.toUpper := by
  have hlow : 97 ≤ letter.toNat := h.1
  have hhigh : letter.toNat ≤ 122 := h.2
  simp only [← Char.toNat_inj, toNat_toLower, toNat_toUpper h]
  split <;> omega

/-- Whether a word is a given one in small letters, if each letter may be a capital too. -/
def Spells (letters : List Char) (word : String) : Prop :=
  List.Forall₂ (fun c letter => c = letter ∨ c = letter.toUpper) word.toList letters

theorem lowerLatin_eq_iff {letters : List Char}
    (h : ∀ letter ∈ letters, 'a' ≤ letter ∧ letter ≤ 'z') (word : String) :
    lowerLatin word = String.ofList letters ↔ Spells letters word := by
  rw [← String.toList_inj, lowerLatin, String.toList_map, String.toList_ofList, Spells]
  generalize word.toList = cs
  induction letters generalizing cs with
  | nil => simp
  | cons letter letters ih =>
      obtain ⟨hletter, hletters⟩ := List.forall_mem_cons.mp h
      cases cs with
      | nil => simp
      | cons c cs =>
          rw [List.map_cons, List.cons.injEq, toLower_eq_iff hletter, ih hletters,
            List.forall₂_cons]

/-- What is trimmed at its end is what stands before the last characters of the class. -/
theorem eq_trimEndWith_iff {drop : Char → Bool} {kept cs : List Char} :
    kept = trimEndWith drop cs ↔ ∃ dropped, cs = kept ++ dropped ∧
      (∀ c ∈ dropped, drop c = true) ∧ ∀ c ∈ kept.getLast?, drop c = false := by
  change kept = cs.rdropWhile drop ↔ _
  constructor
  · rintro rfl
    refine ⟨cs.rtakeWhile drop, List.rdropWhile_append_rtakeWhile.symm,
      fun c hmem => List.mem_rtakeWhile_imp hmem, fun c hlast => ?_⟩
    obtain ⟨hne, rfl⟩ := List.mem_getLast?_eq_getLast hlast
    exact Bool.eq_false_iff.mpr (List.rdropWhile_last_not drop cs hne)
  · rintro ⟨dropped, rfl, hdropped, hlast⟩
    induction dropped using List.reverseRecOn with
    | nil =>
        rw [List.append_nil]
        refine (List.rdropWhile_eq_self_iff.mpr fun hne => ?_).symm
        exact Bool.eq_false_iff.mp (hlast _ (List.getLast?_eq_some_getLast hne))
    | append_singleton dropped c ih =>
        rw [← List.append_assoc, List.rdropWhile_concat_pos _ _ _ (hdropped c (by simp))]
        exact ih fun other hmem => hdropped other (List.mem_append_left _ hmem)

/-- A text is another one that slashes follow, and the other one ends with none itself. -/
def Stem (text base : String) : Prop :=
  ∃ slashes, text.toList = base.toList ++ slashes ∧ (∀ c ∈ slashes, c = '/') ∧
    base.toList.getLast? ≠ some '/'

theorem stem_iff {text base : String} :
    Stem text base ↔ base.toList = trimEndWith (· == '/') text.toList := by
  have hlast : (∀ c ∈ base.toList.getLast?, (c == '/') = false) ↔
      base.toList.getLast? ≠ some '/' := by
    constructor
    · intro hall hslash
      exact absurd (hall '/' hslash) (by decide)
    · intro hne c hmem
      refine beq_false_of_ne ?_
      rintro rfl
      exact hne hmem
  rw [eq_trimEndWith_iff, hlast, Stem]
  simp only [beq_iff_eq]

theorem Stem.unique {text base other : String} (h : Stem text base) (hother : Stem text other) :
    base = other :=
  String.toList_inj.mp ((stem_iff.mp h).trans (stem_iff.mp hother).symm)

end Text

namespace FileLoader

/-- The value of a variable: the one that the environment gives it, or else the one that it has in
the file. -/
def given (loader : FileLoader) (environment : Environment) (file name : String) : Option String :=
  (Environment.lookup environment name).or (loader.value? environment file name)

/-- What a loader is documented to do: it does not override variables that are set, and it sets the
other ones to the values that they have in the file. -/
structure AddsOnly (loader : FileLoader) : Prop where
  kept : ∀ {environment file loaded}, loader.load environment file = .ok loaded →
    ∀ name value, Environment.lookup environment name = some value →
      Environment.lookup loaded name = some value
  added : ∀ {environment file loaded}, loader.load environment file = .ok loaded →
    ∀ name, Environment.lookup environment name = none →
      Environment.lookup loaded name = loader.value? environment file name

/-- After a file was loaded, a variable has the value of the environment or else that of the file.
-/
theorem AddsOnly.lookup_of_load {loader : FileLoader} (h : loader.AddsOnly)
    {environment loaded : Environment} {file : String}
    (hload : loader.load environment file = .ok loaded) (name : String) :
    Environment.lookup loaded name = loader.given environment file name := by
  unfold given
  cases hset : Environment.lookup environment name with
  | some value => exact h.kept hload name value hset
  | none => exact h.added hload name hset

theorem lookup_append (environment others : Environment) (name : String) :
    Environment.lookup (environment ++ others) name =
      (Environment.lookup environment name).or (Environment.lookup others name) := by
  unfold Environment.lookup
  rw [List.find?_append, Option.map_or]

theorem plain_addsOnly : plain.AddsOnly where
  kept := by
    rintro environment file _ ⟨⟩ name value hset
    rw [lookup_append, hset, Option.some_or]
  added := by
    rintro environment file _ ⟨⟩ name hset
    rw [lookup_append, hset, Option.none_or]
    rfl

end FileLoader

/-- The address that a client keeps is what stands before the slashes at the end. -/
theorem Client.stem_address (address : String) (timeout : Number.Binary64) :
    Text.Stem address (Client.make address timeout).address :=
  Text.stem_iff.mpr String.toList_ofList

namespace Settings

open Text (Stem)

/-- The test exchange is asked for, by the flag of the command line or by the variable. -/
def AsksForTestnet (value? : String → Option String) (flag : Bool) : Prop :=
  flag = true ∨ ∃ word, value? "BYBIT_TESTNET" = some word ∧ Text.Spells ['t', 'r', 'u', 'e'] word

/-- No address is given, or an empty one. -/
def NotOverridden (value? : String → Option String) : Prop :=
  ∀ address, value? "BYBIT_BASE_URL" = some address → address = ""

/-- The address that variables and the flag of the command line come to. -/
inductive Endpoint (value? : String → Option String) (flag : Bool) : String → Prop
  | override {address : String} : value? "BYBIT_BASE_URL" = some address → address ≠ "" →
      Endpoint value? flag address
  | testnet : NotOverridden value? → AsksForTestnet value? flag →
      Endpoint value? flag testnetAddress
  | mainnet : NotOverridden value? → ¬ AsksForTestnet value? flag →
      Endpoint value? flag mainnetAddress

/-- The word for the exchange that is asked for, and its usual address. -/
inductive Named (value? : String → Option String) (flag : Bool) : String → String → Prop
  | testnet : AsksForTestnet value? flag → Named value? flag "Testnet" testnetAddress
  | mainnet : ¬ AsksForTestnet value? flag → Named value? flag "Mainnet" mainnetAddress

/-- No address is given but this one, slashes at its end aside. -/
def OverriddenAtMostBy (value? : String → Option String) (base : String) : Prop :=
  ∀ address, value? "BYBIT_BASE_URL" = some address → address ≠ "" → Stem address base

section Endpoint

variable {value? : String → Option String} {flag : Bool} {address base word named : String}

theorem NotOverridden.atMostBy (h : NotOverridden value?) (base : String) :
    OverriddenAtMostBy value? base :=
  fun address hvalue hne => absurd (h address hvalue) hne

/-- A usual address is its own stem. -/
theorem Named.stem (h : Named value? flag word named) : Stem named named := by
  rw [Text.stem_iff]
  cases h with
  | testnet => decide
  | mainnet => decide

/-- The exchange that is asked for is the one at the endpoint exactly if no other address is given.
-/
theorem Endpoint.eq_named_iff (h : Endpoint value? flag address) (hbase : Stem address base)
    (hnamed : Named value? flag word named) : base = named ↔ OverriddenAtMostBy value? named := by
  cases h with
  | override hvalue hne =>
      constructor
      · rintro rfl other hother -
        rw [hvalue] at hother
        cases hother
        exact hbase
      · exact fun hatMost => hbase.unique (hatMost address hvalue hne)
  | testnet hnone hasks =>
      cases hnamed with
      | testnet =>
          exact iff_of_true (hbase.unique (Named.testnet hasks).stem) (hnone.atMostBy _)
      | mainnet hnot => exact absurd hasks hnot
  | mainnet hnone hnot =>
      cases hnamed with
      | testnet hasks => exact absurd hasks hnot
      | mainnet =>
          exact iff_of_true (hbase.unique (Named.mainnet hnot).stem) (hnone.atMostBy _)

end Endpoint

theorem asksForTestnet_iff (value? : String → Option String) (flag : Bool) :
    AsksForTestnet value? flag ↔
      (flag || Text.lowerLatin ((value? "BYBIT_TESTNET").getD "false") == "true") = true := by
  have htrue : "true" = String.ofList ['t', 'r', 'u', 'e'] := rfl
  have hletters : ∀ letter ∈ ['t', 'r', 'u', 'e'], 'a' ≤ letter ∧ letter ≤ 'z' := by decide
  have hfalse : ¬ Text.Spells ['t', 'r', 'u', 'e'] "false" :=
    fun h => absurd h.length_eq (by decide)
  rw [Bool.or_eq_true, beq_iff_eq, htrue, Text.lowerLatin_eq_iff hletters, AsksForTestnet]
  cases value? "BYBIT_TESTNET" with
  | none => simp [hfalse]
  | some word => simp

/-- What the settings take from the variables that the endpoint depends on. -/
theorem endpoint_variables {environment : Environment} {settings : Settings}
    (h : ofEnvironment environment = .ok settings) : settings.testnet =
      (Text.lowerLatin ((Environment.lookup environment "BYBIT_TESTNET").getD "false") == "true") ∧
      settings.addressOverride = (Environment.lookup environment "BYBIT_BASE_URL").getD "" := by
  unfold ofEnvironment at h
  simp only [bind, Except.bind] at h
  split at h
  · cases h
  · split at h
    · cases h
    · split at h
      · cases h
      · split at h
        · cases h
        · cases h
          exact ⟨rfl, rfl⟩

/-- The address of settings that agree with the variables and the flag is their endpoint. -/
theorem endpoint_address {value? : String → Option String} {flag : Bool} {settings : Settings}
    (htestnet : AsksForTestnet value? flag ↔ settings.testnet = true)
    (hoverride : settings.addressOverride = (value? "BYBIT_BASE_URL").getD "") :
    Endpoint value? flag settings.address := by
  unfold address
  split
  case isTrue hempty =>
    rw [String.isEmpty_iff, hoverride] at hempty
    have hnone : NotOverridden value? := by
      intro address hvalue
      rwa [hvalue] at hempty
    split
    case isTrue hasks => exact .testnet hnone (htestnet.mpr hasks)
    case isFalse hnot => exact .mainnet hnone fun hasks => hnot (htestnet.mp hasks)
  case isFalse hne =>
    rw [String.isEmpty_iff, hoverride] at hne
    rw [hoverride]
    cases hvalue : value? "BYBIT_BASE_URL" with
    | none => exact absurd (by rw [hvalue]; rfl) hne
    | some address =>
        rw [hvalue] at hne
        exact .override hvalue hne

end Settings

end CandleHistory
