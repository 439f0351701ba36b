/-
What the arguments say, apart from how they are written.

* `Verbosity.NamedBy`: the names of a verbosity, in small or capital letters;
* `Item`: what an argument, or an option with its value, says;
* `Says`: what items come to, whatever their order (`Says.of_perm`): a value for
  each setting that is given once, the usual value where none is given, and the
  one name of the program;
* `Choices.Adds`: what items add to the choices. Reading them succeeds exactly if they
  add something, and then it adds that (`Choices.readItems_eq_ok_iff`);
* `says_iff` (**what items come to** is the request that they make).
-/
import Mathlib
import Bytecode.Command.Arguments
import Bytecode.Text.Unsigned.Lemmas

namespace Bytecode.Command

/-! ### The names of verbosities -/

namespace Verbosity

/-- The name of a verbosity. -/
def name : Verbosity → String
  | off => "off"
  | upTo .error => "error"
  | upTo .warn => "warn"
  | upTo .info => "info"
  | upTo .debug => "debug"
  | upTo .trace => "trace"

/-- A text names a verbosity: each of its characters is that of the name, or the
capital letter for it. -/
def NamedBy (v : Verbosity) (text : String) : Prop :=
  List.Forall₂ (fun c d : Char => c = d ∨ c = d.toUpper) text.toList v.name.toList

/-- Names are written in small letters. -/
lemma isLower_of_mem_name {v : Verbosity} : ∀ d ∈ v.name.toList, d.isLower = true := by
  rw [← List.all_eq_true]
  cases v with
  | off => decide
  | upTo s => cases s <;> decide

/-- The characters that a small letter stands for. -/
lemma toLower_eq_iff {c d : Char} (hd : d.isLower = true) :
    c.toLower = d ↔ c = d ∨ c = d.toUpper := by
  have hsmall : d.toLower = d := Char.toLower_eq_of_not_isUpper (Char.not_isUpper_of_isLower hd)
  constructor
  · rintro rfl
    by_cases hc : c.isUpper = true
    · exact .inr <| by
        rw [Char.toUpper_toLower_eq_toUpper,
          Char.toUpper_eq_of_not_isLower (Char.not_isLower_of_isUpper hc)]
    · exact .inl (Char.toLower_eq_of_not_isUpper hc).symm
  · rintro (rfl | rfl)
    · exact hsmall
    · rw [Char.toLower_toUpper_eq_toLower, hsmall]

/-- A text in small letters is a name exactly if the text names that verbosity. -/
lemma toLower_eq_name_iff {v : Verbosity} {text : String} :
    text.toLower = v.name ↔ v.NamedBy text := by
  have hcommon : ∀ cs ds : List Char, (∀ d ∈ ds, d.isLower = true) →
      (cs.map Char.toLower = ds ↔ List.Forall₂ (fun c d => c = d ∨ c = d.toUpper) cs ds) := by
    intro cs ds hds
    induction cs generalizing ds with
    | nil => cases ds <;> simp
    | cons c cs ih =>
        cases ds with
        | nil => simp
        | cons d ds =>
            rw [List.forall_mem_cons] at hds
            rw [List.map_cons, List.cons.injEq, List.forall₂_cons, toLower_eq_iff hds.1,
              ih ds hds.2]
  rw [← String.toList_inj, String.toLower, String.toList_map]
  exact hcommon _ _ isLower_of_mem_name

/-- **The names of verbosities**, in small or capital letters. -/
lemma ofName?_eq_some_iff {v : Verbosity} {text : String} :
    ofName? text = some v ↔ v.NamedBy text := by
  rw [← toLower_eq_name_iff, ofName?]
  constructor
  · intro h
    split at h <;> cases h <;> assumption
  · intro h
    rw [h]
    cases v with
    | off => rfl
    | upTo s => cases s <;> rfl

end Verbosity

/-! ### Items -/

/-- The option that sets a setting. -/
def Setting.option : Setting → String
  | limit .stack => "--stack-size"
  | limit .registers => "--num-registers"
  | limit .memory => "--max-program-bytes"
  | verbosity => "--log-level"

/-- What an argument, or an option with its value, says. -/
inductive Item where
  /-- An option with the argument behind it as its value. -/
  | setting (s : Setting) (value : String)
  /-- The question for a listing, in its short or its long form. -/
  | listing (long : Bool)
  /-- The name of the program. -/
  | name (path : String)
  deriving DecidableEq

namespace Item

/-- The arguments that an item is written as. -/
def spelled : Item → List String
  | setting s value => [s.option, value]
  | listing long => [if long then "--disassemble" else "-d"]
  | name path => [path]

/-- An item can be written before `--`: all of them but a name that would be read
as an option or as a question for help. A value can be any text. -/
def Plain : Item → Prop
  | name path => path.toList.head? ≠ some '-' ∧ path ≠ "help"
  | _ => True

/-- The name that an item gives. -/
def name? : Item → Option String
  | name path => some path
  | _ => none

/-- The value that an item gives to a setting. -/
def value? (s : Setting) : Item → Option String
  | setting s' value => if s' = s then some value else none
  | _ => none

/-- Whether an item asks for a listing. -/
def isListing : Item → Bool
  | listing _ => true
  | _ => false

end Item

/-- The names among items. -/
def namesOf (items : List Item) : List String :=
  items.filterMap Item.name?

/-- The values that items give to a setting, each time that they do. -/
def valuesOf (s : Setting) (items : List Item) : List String :=
  items.filterMap (Item.value? s)

/-- A value given to a setting is the first of its values. -/
lemma valuesOf_cons_self (s : Setting) (text : String) (items : List Item) :
    valuesOf s (.setting s text :: items) = text :: valuesOf s items :=
  List.filterMap_cons_some (if_pos rfl)

/-- A value given to another setting is none of the values of this one. -/
lemma valuesOf_cons_of_ne {s s' : Setting} (hne : s' ≠ s) (text : String) (items : List Item) :
    valuesOf s (.setting s' text :: items) = valuesOf s items :=
  List.filterMap_cons_none (if_neg hne)

/-! ### What items come to -/

/-- A setting has the value that is given once, or the usual one if none is
given. -/
inductive Given {α : Type} (reads : String → α → Prop) (usual : α) : List String → α → Prop
  /-- No value is given. -/
  | absent : Given reads usual [] usual
  /-- One value is given. -/
  | once {text : String} {v : α} (h : reads text v) : Given reads usual [text] v

/-- What items come to: one program, each limit a number of 64 bits, the verbosity
one of the six, and whether a listing is asked for. -/
structure Says (items : List Item) (a : Arguments) : Prop where
  program : namesOf items = [a.program]
  limits : ∀ r, Given (Text.Numeral (2 ^ 64)) (Limits.standard.get r) (valuesOf (.limit r) items)
    (a.limits.get r)
  verbosity : Given (fun text v => Verbosity.NamedBy v text) (.upTo .warn)
    (valuesOf .verbosity items) a.verbosity
  listing : a.listing = items.any Item.isListing

/-- The order of no more than one value does not matter. -/
lemma Given.of_perm {α : Type} {reads : String → α → Prop} {usual v : α}
    {values values' : List String} (h : Given reads usual values v)
    (hperm : values.Perm values') : Given reads usual values' v := by
  cases h with
  | absent =>
      obtain rfl := hperm.nil_eq
      exact .absent
  | once h =>
      obtain rfl := hperm.singleton_eq
      exact .once h

/-- **The order of items does not matter.** -/
theorem Says.of_perm {items items' : List Item} {a : Arguments} (h : Says items a)
    (hperm : items.Perm items') : Says items' a where
  program := by
    have hnames : (namesOf items).Perm (namesOf items') := hperm.filterMap _
    rw [h.program] at hnames
    exact hnames.singleton_eq.symm
  limits r := (h.limits r).of_perm (hperm.filterMap _)
  verbosity := h.verbosity.of_perm (hperm.filterMap _)
  listing := h.listing.trans (hperm.any_eq)

/-! ### What items add to the choices -/

/-- What values add to what has been given before: each of them something, where
nothing was given before. -/
def Gains {α : Type} (reads : String → α → Prop) (values : List String) (before after : Option α) :
    Prop :=
  ∃ gained : List α, List.Forall₂ reads values gained ∧ after.toList = before.toList ++ gained

section Gains

variable {α : Type} {reads : String → α → Prop} {before after : Option α}

/-- Without values nothing is added. -/
lemma gains_nil : Gains reads [] before after ↔ after = before := by
  constructor
  · rintro ⟨gained, hgained, hafter⟩
    obtain rfl := List.forall₂_nil_left_iff.mp hgained
    rw [List.append_nil] at hafter
    cases before <;> cases after <;> simp_all
  · rintro rfl
    exact ⟨[], .nil, (List.append_nil _).symm⟩

/-- A value is added where nothing was given before, and is what was given before
the values behind it. -/
lemma gains_cons {text : String} {values : List String} :
    Gains reads (text :: values) before after ↔
      before = none ∧ ∃ v, reads text v ∧ Gains reads values (some v) after := by
  constructor
  · rintro ⟨gained, hgained, hafter⟩
    obtain ⟨v, rest, hv, hrest, rfl⟩ := List.forall₂_cons_left_iff.mp hgained
    cases before with
    | none => exact ⟨rfl, v, hv, rest, hrest, hafter⟩
    | some w =>
        -- there is no room for two
        cases after <;> simp at hafter
  · rintro ⟨rfl, v, hv, rest, hrest, hafter⟩
    exact ⟨v :: rest, .cons hv hrest, hafter⟩

/-- Where nothing was given before, a setting comes to its one value or to the
usual one. -/
lemma given_iff_gains {usual v : α} {values : List String} :
    Given reads usual values v ↔
      ∃ after, Gains reads values none after ∧ after.getD usual = v := by
  constructor
  · intro h
    cases h with
    | absent => exact ⟨none, gains_nil.mpr rfl, rfl⟩
    | once h => exact ⟨some v, gains_cons.mpr ⟨rfl, v, h, gains_nil.mpr rfl⟩, rfl⟩
  · rintro ⟨after, hgains, rfl⟩
    cases values with
    | nil =>
        rw [gains_nil] at hgains
        subst hgains
        exact .absent
    | cons text values =>
        obtain ⟨-, v, hv, hrest⟩ := gains_cons.mp hgains
        cases values with
        | nil =>
            rw [gains_nil] at hrest
            subst hrest
            exact .once hv
        | cons text' values => cases (gains_cons.mp hrest).1

end Gains

namespace Choices

/-- Reads an item. -/
def read (d : Choices) : Item → Except ArgumentError Choices
  | .setting s value =>
    match d.give s value with
    | .ok d => .ok d
    | .error reason => .error (.badValue s.option value reason)
  | .listing _ => .ok { d with listing := true }
  | .name path => d.name path

/-- Reads items, one after the other. -/
def readItems (d : Choices) : List Item → Except ArgumentError Choices
  | [] => .ok d
  | item :: rest =>
    match d.read item with
    | .ok d => d.readItems rest
    | .error e => .error e

/-- What items add to the choices. -/
structure Adds (items : List Item) (d d' : Choices) : Prop where
  limits : ∀ r, Gains (Text.Numeral (2 ^ 64)) (valuesOf (.limit r) items) (d.limit r) (d'.limit r)
  verbosity : Gains (fun text v => Verbosity.NamedBy v text) (valuesOf .verbosity items)
    d.verbosity d'.verbosity
  program : Gains Eq (namesOf items) d.program d'.program
  listing : d'.listing = (d.listing || items.any Item.isListing)
  help : d'.help = d.help

variable {d d' : Choices} {items : List Item}

/-- A limit that was set is the last one given for its resource. -/
lemma limit_setLimit (d : Choices) (r r' : Resource) (n : ℕ) :
    (d.setLimit r n).limit r' = if r = r' then some n else d.limit r' := by
  cases r <;> cases r' <;> rfl

/-- A limit leaves the verbosity. -/
@[simp] lemma verbosity_setLimit (d : Choices) (r : Resource) (n : ℕ) :
    (d.setLimit r n).verbosity = d.verbosity := by
  cases r <;> rfl

/-- A limit leaves the name of the program. -/
@[simp] lemma program_setLimit (d : Choices) (r : Resource) (n : ℕ) :
    (d.setLimit r n).program = d.program := by
  cases r <;> rfl

/-- A limit leaves the question for a listing. -/
@[simp] lemma listing_setLimit (d : Choices) (r : Resource) (n : ℕ) :
    (d.setLimit r n).listing = d.listing := by
  cases r <;> rfl

/-- A limit leaves the question for help. -/
@[simp] lemma help_setLimit (d : Choices) (r : Resource) (n : ℕ) :
    (d.setLimit r n).help = d.help := by
  cases r <;> rfl

/-- Choices are a limit for each resource, and the rest. -/
lemma ext_of_limits (hlimits : ∀ r, d'.limit r = d.limit r)
    (hverbosity : d'.verbosity = d.verbosity) (hprogram : d'.program = d.program)
    (hlisting : d'.listing = d.listing)
    (hhelp : d'.help = d.help) : d' = d := by
  have hstack := hlimits .stack
  have hregisters := hlimits .registers
  have hmemory := hlimits .memory
  cases d
  cases d'
  simp_all [limit]

/-- A limit is read exactly if none was given before and its text is a number. -/
lemma read_limit_eq_ok_iff {r : Resource} {text : String} :
    d.read (.setting (.limit r) text) = .ok d' ↔
      d.limit r = none ∧ ∃ n, Text.Numeral (2 ^ 64) text n ∧ d.setLimit r n = d' := by
  have hnumber : ∀ n, Text.readUnsigned numberBound text = .ok n ↔ Text.Numeral (2 ^ 64) text n :=
    fun n => Text.readUnsigned_eq_ok_iff (by decide) text
  simp only [← hnumber]
  rw [read, give]
  cases hlimit : d.limit r with
  | some m => simp
  | none => cases hread : Text.readUnsigned numberBound text <;> simp

/-- A verbosity is read exactly if none was given before and its text is a name. -/
lemma read_verbosity_eq_ok_iff {text : String} :
    d.read (.setting .verbosity text) = .ok d' ↔
      d.verbosity = none ∧
        ∃ v, Verbosity.NamedBy v text ∧ { d with verbosity := some v } = d' := by
  simp only [← Verbosity.ofName?_eq_some_iff]
  rw [read, give]
  cases hverbosity : d.verbosity with
  | some v => simp
  | none => cases hread : Verbosity.ofName? text <;> simp

/-- A name is read exactly if none was given before. -/
lemma read_name_eq_ok_iff {path : String} :
    d.read (.name path) = .ok d' ↔ d.program = none ∧ { d with program := some path } = d' := by
  rw [read, name]
  cases hprogram : d.program with
  | some p => simp
  | none => simp

/-- What a limit in front of other items adds. -/
lemma adds_limit_cons {r : Resource} {text : String} :
    Adds (.setting (.limit r) text :: items) d d' ↔
      d.limit r = none ∧ ∃ n, Text.Numeral (2 ^ 64) text n ∧ Adds items (d.setLimit r n) d' := by
  have hother : ∀ r' n, r ≠ r' →
      (Gains (Text.Numeral (2 ^ 64)) (valuesOf (.limit r') (.setting (.limit r) text :: items))
          (d.limit r') (d'.limit r') ↔
        Gains (Text.Numeral (2 ^ 64)) (valuesOf (.limit r') items)
          ((d.setLimit r n).limit r') (d'.limit r')) := by
    intro r' n hne
    rw [valuesOf_cons_of_ne (fun h => hne (Setting.limit.inj h)), limit_setLimit, if_neg hne]
  have hsame : ∀ n, (d.setLimit r n).limit r = some n := fun n => by
    rw [limit_setLimit, if_pos rfl]
  constructor
  · intro h
    have hr := h.limits r
    rw [valuesOf_cons_self] at hr
    obtain ⟨hnone, n, hn, hrest⟩ := gains_cons.mp hr
    refine ⟨hnone, n, hn, fun r' => ?_, ?_, ?_, ?_, ?_⟩
    case refine_1 =>
      by_cases hr' : r = r'
      · subst hr'
        rwa [hsame]
      · exact (hother r' n hr').mp (h.limits r')
    all_goals simp only [verbosity_setLimit, program_setLimit, listing_setLimit, help_setLimit]
    exacts [h.verbosity, h.program, h.listing, h.help]
  · rintro ⟨hnone, n, hn, hlimits, hverbosity, hprogram, hlisting, hhelp⟩
    rw [verbosity_setLimit] at hverbosity
    rw [program_setLimit] at hprogram
    rw [listing_setLimit] at hlisting
    rw [help_setLimit] at hhelp
    refine ⟨fun r' => ?_, hverbosity, hprogram, hlisting, hhelp⟩
    by_cases hr' : r = r'
    · subst hr'
      have hrest := hlimits r
      rw [hsame] at hrest
      rw [valuesOf_cons_self]
      exact gains_cons.mpr ⟨hnone, n, hn, hrest⟩
    · exact (hother r' n hr').mpr (hlimits r')

/-- What a verbosity in front of other items adds. -/
lemma adds_verbosity_cons {text : String} :
    Adds (.setting .verbosity text :: items) d d' ↔
      d.verbosity = none ∧
        ∃ v, Verbosity.NamedBy v text ∧ Adds items { d with verbosity := some v } d' := by
  constructor
  · intro h
    have hv := h.verbosity
    rw [valuesOf_cons_self] at hv
    obtain ⟨hnone, v, hname, hrest⟩ := gains_cons.mp hv
    exact ⟨hnone, v, hname, h.limits, hrest, h.program, h.listing, h.help⟩
  · rintro ⟨hnone, v, hname, h⟩
    refine ⟨h.limits, ?_, h.program, h.listing, h.help⟩
    rw [valuesOf_cons_self]
    exact gains_cons.mpr ⟨hnone, v, hname, h.verbosity⟩

/-- What a name in front of other items adds. -/
lemma adds_name_cons {path : String} :
    Adds (.name path :: items) d d' ↔
      d.program = none ∧ Adds items { d with program := some path } d' := by
  constructor
  · intro h
    obtain ⟨hnone, p, rfl, hrest⟩ := gains_cons.mp h.program
    exact ⟨hnone, h.limits, h.verbosity, hrest, h.listing, h.help⟩
  · rintro ⟨hnone, h⟩
    exact ⟨h.limits, h.verbosity, gains_cons.mpr ⟨hnone, path, rfl, h.program⟩, h.listing, h.help⟩

/-- What a question for a listing in front of other items adds. -/
lemma adds_listing_cons {long : Bool} :
    Adds (.listing long :: items) d d' ↔ Adds items { d with listing := true } d' := by
  have hlisting : (d.listing || (Item.listing long :: items).any Item.isListing)
      = (true || items.any Item.isListing) := by
    rw [List.any_cons, Item.isListing, Bool.true_or, Bool.or_true]
  constructor
  · exact fun h =>
      ⟨h.limits, h.verbosity, h.program, h.listing.trans hlisting, h.help⟩
  · exact fun h =>
      ⟨h.limits, h.verbosity, h.program, h.listing.trans hlisting.symm, h.help⟩

/-- **One more item** in front is read first, and what is behind it is added to
what it has come to. -/
lemma adds_cons {item : Item} :
    Adds (item :: items) d d' ↔ ∃ d₁, d.read item = .ok d₁ ∧ Adds items d₁ d' := by
  cases item with
  | setting s text =>
      cases s with
      | limit r =>
          simp only [adds_limit_cons, read_limit_eq_ok_iff]
          constructor
          · rintro ⟨hnone, n, hn, h⟩
            exact ⟨_, ⟨hnone, n, hn, rfl⟩, h⟩
          · rintro ⟨_, ⟨hnone, n, hn, rfl⟩, h⟩
            exact ⟨hnone, n, hn, h⟩
      | verbosity =>
          simp only [adds_verbosity_cons, read_verbosity_eq_ok_iff]
          constructor
          · rintro ⟨hnone, v, hv, h⟩
            exact ⟨_, ⟨hnone, v, hv, rfl⟩, h⟩
          · rintro ⟨_, ⟨hnone, v, hv, rfl⟩, h⟩
            exact ⟨hnone, v, hv, h⟩
  | listing long => simp only [adds_listing_cons, read, Except.ok.injEq, exists_eq_left']
  | name path =>
      simp only [adds_name_cons, read_name_eq_ok_iff]
      constructor
      · exact fun h => ⟨_, ⟨h.1, rfl⟩, h.2⟩
      · rintro ⟨_, ⟨hnone, rfl⟩, h⟩
        exact ⟨hnone, h⟩

/-- **What is read of items** is what they add. -/
theorem readItems_eq_ok_iff : d.readItems items = .ok d' ↔ Adds items d d' := by
  induction items generalizing d with
  | nil =>
      rw [readItems, Except.ok.injEq]
      constructor
      · rintro rfl
        exact ⟨fun r => gains_nil.mpr rfl, gains_nil.mpr rfl, gains_nil.mpr rfl,
          (Bool.or_false _).symm, rfl⟩
      · intro h
        exact (ext_of_limits (fun r => gains_nil.mp (h.limits r)) (gains_nil.mp h.verbosity)
          (gains_nil.mp h.program) (h.listing.trans (Bool.or_false _)) h.help).symm
  | cons item rest ih =>
      rw [adds_cons, readItems]
      cases d.read item with
      | ok d₁ => simp [ih]
      | error e => simp

end Choices

/-! ### The request -/

/-- Limits are the same if there is the same of each resource. -/
lemma limits_ext {l l' : Limits} (h : ∀ r, l.get r = l'.get r) : l = l' := by
  have hstack := h .stack
  have hregisters := h .registers
  have hmemory := h .memory
  cases l
  cases l'
  simp_all [Limits.get]

/-- The limits that are chosen are those given, or the capacities. -/
lemma Choices.get_limits (d : Choices) (r : Resource) :
    d.limits.get r = (d.limit r).getD (Limits.standard.get r) := by
  cases r <;> rfl

/-- Choices make a request to execute exactly if they do not ask for help and
name the program. -/
lemma Choices.request_eq_execute_iff {d : Choices} {a : Arguments} :
    d.request = .ok (.execute a) ↔
      d.help = false ∧ d.program = some a.program ∧ d.limits = a.limits ∧
        d.listing = a.listing ∧ d.verbosity.getD (.upTo .warn) = a.verbosity := by
  obtain ⟨program, limits, listing, verbosity⟩ := a
  rw [request]
  cases d.help <;> cases d.program <;> simp

/-- **What items come to** is the request that they make. -/
lemma says_iff {items : List Item} {a : Arguments} :
    Says items a ↔ ∃ d, Choices.Adds items .blank d ∧ d.request = .ok (.execute a) := by
  have hblank : ∀ r, Choices.blank.limit r = none := by
    intro r
    cases r <;> rfl
  constructor
  · intro h
    choose limit hlimit hlimits using fun r => given_iff_gains.mp (h.limits r)
    obtain ⟨verbosity, hverbosity, hlevel⟩ := given_iff_gains.mp h.verbosity
    refine ⟨⟨limit .stack, limit .registers, limit .memory, verbosity, a.listing, false,
      some a.program⟩, ⟨fun r => ?_, hverbosity, ?_, h.listing, rfl⟩, ?_⟩
    · rw [hblank]
      have hr := hlimit r
      cases r <;> exact hr
    · rw [h.program]
      exact gains_cons.mpr ⟨rfl, _, rfl, gains_nil.mpr rfl⟩
    · refine Choices.request_eq_execute_iff.mpr ⟨rfl, rfl, limits_ext fun r => ?_, rfl, hlevel⟩
      rw [Choices.get_limits, ← hlimits r]
      cases r <;> rfl
  · rintro ⟨d, h, hrequest⟩
    obtain ⟨-, hprogram, hlimits, hlisting, hlevel⟩ := Choices.request_eq_execute_iff.mp hrequest
    constructor
    case program =>
      have hnames := h.program
      rw [hprogram] at hnames
      obtain ⟨names, hnames, hone⟩ := hnames
      rw [List.forall₂_eq_eq_eq] at hnames
      rw [hnames]
      exact hone.symm
    case limits =>
      intro r
      refine given_iff_gains.mpr ⟨d.limit r, hblank r ▸ h.limits r, ?_⟩
      rw [← hlimits, Choices.get_limits]
    case verbosity => exact given_iff_gains.mpr ⟨d.verbosity, h.verbosity, hlevel⟩
    case listing => exact hlisting.symm.trans h.listing

end Bytecode.Command
