/-
The grammar of the arguments: which lists of arguments make a request, and which
request that is.

* `Spells`: how items are written as arguments. Items are written one after the
  other, and behind `--` only names are;
* `AsksHelp`: a question for help where an item could begin;
* `Choices.readAll_of_spells`: a spelling is read as its items;
* `Choices.Passes`: what is read of arguments without an error, one rule for each
  kind of argument. It is the spelling of items, or asks for help
  (`Choices.Passes.exists_spells_or_asksHelp`);
* `request_follows_grammar` (**the grammar**): the arguments that make a request,
  and the request that they make.
-/
import Mathlib
import Bytecode.Proofs.Items

namespace Bytecode.Command

/-! ### How items are written -/

/-- How items are written as arguments: one after the other, and those behind `--`
are names, whatever they look like. -/
inductive Spells : List Item → List String → Prop
  /-- No argument ends the options. -/
  | plain {items : List Item} (h : ∀ item ∈ items, item.Plain) :
      Spells items (items.flatMap Item.spelled)
  /-- The first `--` that is no value ends the options. -/
  | ended {items : List Item} (h : ∀ item ∈ items, item.Plain) (paths : List String) :
      Spells (items ++ paths.map .name) (items.flatMap Item.spelled ++ "--" :: paths)

/-- Arguments ask for help: where an item could begin is one of the words for it. -/
def AsksHelp (arguments : List String) : Prop :=
  ∃ (items : List Item) (word : String) (rest : List String),
    arguments = items.flatMap Item.spelled ++ word :: rest ∧ (∀ item ∈ items, item.Plain) ∧
      (word = "help" ∨ word = "--help")

/-- An item in front of a spelling is written in front of it. -/
lemma Spells.cons {item : Item} {items : List Item} {arguments : List String}
    (hplain : item.Plain) (h : Spells items arguments) :
    Spells (item :: items) (item.spelled ++ arguments) := by
  cases h with
  | plain h => exact .plain (List.forall_mem_cons.mpr ⟨hplain, h⟩)
  | @ended items h paths =>
      have hended := Spells.ended (List.forall_mem_cons.mpr ⟨hplain, h⟩) paths
      rwa [List.flatMap_cons, List.append_assoc] at hended

/-- Help is asked for behind an item as it is without the item. -/
lemma AsksHelp.cons {item : Item} {arguments : List String} (hplain : item.Plain)
    (h : AsksHelp arguments) : AsksHelp (item.spelled ++ arguments) := by
  obtain ⟨items, word, rest, rfl, hitems, hword⟩ := h
  refine ⟨item :: items, word, rest, ?_, List.forall_mem_cons.mpr ⟨hplain, hitems⟩, hword⟩
  rw [List.flatMap_cons, List.append_assoc]

/-! ### Reading arguments -/

namespace Choices

variable {d d' : Choices} {items : List Item} {arguments : List String}

/-- Items behind others are read after them. -/
lemma readItems_append (d : Choices) (items items' : List Item) :
    d.readItems (items ++ items') = (d.readItems items).bind (·.readItems items') := by
  induction items generalizing d with
  | nil => rfl
  | cons item rest ih =>
      rw [List.cons_append, readItems, readItems]
      cases d.read item with
      | ok d₁ => exact ih d₁
      | error e => rfl

/-- What items add is no question for help. -/
lemma help_of_read {item : Item} (h : d.read item = .ok d') : d'.help = d.help := by
  have hadds : Adds [item] d d' := readItems_eq_ok_iff.mp (by rw [readItems, h]; rfl)
  exact hadds.help

/-- An option sets its setting, and no other one does. -/
lemma ofOption?_eq_some_iff {s : Setting} {argument : String} :
    Setting.ofOption? argument = some s ↔ argument = s.option := by
  constructor
  · intro h
    unfold Setting.ofOption? at h
    split at h <;> cases h <;> rfl
  · rintro rfl
    cases s with
    | limit r => cases r <;> rfl
    | verbosity => rfl

/-- The word of a setting is an option, and it has no other use. -/
lemma option_ne (s : Setting) :
    s.option ≠ "--help" ∧ s.option ≠ "help" ∧ isOption s.option = true ∧ s.option ≠ "--" ∧
      s.option ≠ "-d" ∧ s.option ≠ "--disassemble" := by
  cases s with
  | limit r => cases r <;> decide
  | verbosity => decide

/-- A setting takes the argument behind its option, whatever that is. -/
lemma readAll_setting (hhelp : d.help = false) (s : Setting) (value : String)
    (rest : List String) :
    d.readAll (s.option :: value :: rest) = (d.read (.setting s value)).bind (·.readAll rest) := by
  have hset : Setting.ofOption? s.option = some s := ofOption?_eq_some_iff.mpr rfl
  rw [readAll]
  simp only [option_ne s, hhelp, hset, read, or_self, if_false, Bool.true_eq_false,
    Bool.false_eq_true]
  cases d.give s value with
  | ok d₁ => rfl
  | error reason => rfl

/-- A word that is not an option, nor one for help, is a name. -/
lemma readAll_name {path : String} (hhead : path.toList.head? ≠ some '-') (hword : path ≠ "help")
    (rest : List String) :
    d.readAll (path :: rest) = (d.read (.name path)).bind (·.readAll rest) := by
  have hword' : path ≠ "--help" := by
    rintro rfl
    exact hhead rfl
  have hoption : isOption path = false := by
    rw [isOption]
    simpa using hhead
  rw [readAll, if_neg (not_or.mpr ⟨hword', hword⟩), if_pos hoption, read]
  cases d.name path with
  | ok d₁ => rfl
  | error e => rfl

/-- An item in front of other arguments is read first. -/
lemma readAll_item {item : Item} (hplain : item.Plain) (hhelp : d.help = false)
    (rest : List String) :
    d.readAll (item.spelled ++ rest) = (d.read item).bind (·.readAll rest) := by
  cases item with
  | setting s value => exact readAll_setting hhelp s value rest
  | listing long =>
      cases long with
      | false =>
          rw [Item.spelled, List.cons_append, List.nil_append, readAll]
          simp [isOption, hhelp, read, Except.bind]
      | true =>
          rw [Item.spelled, List.cons_append, List.nil_append, readAll]
          simp [isOption, hhelp, read, Except.bind]
  | name path => exact readAll_name hplain.1 hplain.2 rest

/-- Items in front of other arguments are read first. -/
lemma readAll_items (hplain : ∀ item ∈ items, item.Plain) (hhelp : d.help = false)
    (rest : List String) :
    d.readAll (items.flatMap Item.spelled ++ rest) = (d.readItems items).bind (·.readAll rest) := by
  induction items generalizing d with
  | nil => rfl
  | cons item items ih =>
      rw [List.forall_mem_cons] at hplain
      rw [List.flatMap_cons, List.append_assoc, readAll_item hplain.1 hhelp, readItems]
      cases hread : d.read item with
      | ok d₁ => exact ih hplain.2 ((help_of_read hread).trans hhelp)
      | error e => rfl

/-- Behind `--` every argument is a name. -/
lemma readNames_eq (d : Choices) (paths : List String) :
    d.readNames paths = d.readItems (paths.map .name) := by
  induction paths generalizing d with
  | nil => rfl
  | cons path rest ih =>
      rw [List.map_cons, readNames, readItems, read]
      cases d.name path with
      | ok d₁ => exact ih d₁
      | error e => rfl

/-- **The spelling of items** is read as the items. -/
lemma readAll_of_spells (hhelp : d.help = false)
    (h : Spells items arguments) : d.readAll arguments = d.readItems items := by
  cases h with
  | plain hplain =>
      have hread := readAll_items hplain hhelp []
      rw [List.append_nil] at hread
      rw [hread]
      cases d.readItems items <;> rfl
  | @ended items hplain paths =>
      rw [readAll_items hplain hhelp, readItems_append]
      cases d.readItems items with
      | ok d₁ => exact readNames_eq d₁ paths
      | error e => rfl

/-- What is read of arguments without an error, from left to right: words for help,
items, and names behind `--`. -/
inductive Passes : Choices → List String → Choices → Prop
  /-- No arguments are left. -/
  | done (d : Choices) : Passes d [] d
  /-- A question for help. -/
  | help {d d' : Choices} {word : String} {rest : List String}
      (hword : word = "help" ∨ word = "--help") (h : Passes { d with help := true } rest d') :
      Passes d (word :: rest) d'
  /-- An item. -/
  | item {d d₁ d' : Choices} {item : Item} {rest : List String} (hplain : item.Plain)
      (hread : d.read item = .ok d₁) (h : Passes d₁ rest d') : Passes d (item.spelled ++ rest) d'
  /-- The end of the options. -/
  | ended {d d' : Choices} {paths : List String} (h : d.readNames paths = .ok d') :
      Passes d ("--" :: paths) d'

/-- **What is read without an error**, argument by argument. -/
lemma passes_of_readAll (h : d.readAll arguments = .ok d') :
    Passes d arguments d' := by
  induction d, arguments using readAll.induct with
  | case1 d =>
      cases h
      exact .done _
  | case2 d word rest hword ih =>
      rw [readAll, if_pos hword] at h
      exact .help hword.symm (ih h)
  | case3 d path rest hword hoption d₁ hname ih =>
      rw [readAll, if_neg hword, if_pos hoption, hname] at h
      have hhead : path.toList.head? ≠ some '-' := by simpa [isOption] using hoption
      exact @Passes.item _ _ _ (.name path) _ ⟨hhead, (not_or.mp hword).2⟩ hname (ih h)
  | case4 d path rest hword hoption e hname =>
      rw [readAll, if_neg hword, if_pos hoption, hname] at h
      cases h
  | case5 d rest hword hoption =>
      rw [readAll, if_neg hword, if_neg hoption, if_pos rfl] at h
      exact .ended h
  | case6 d argument rest hword hoption hend hhelp =>
      rw [readAll, if_neg hword, if_neg hoption, if_neg hend, if_pos hhelp] at h
      cases h
  | case7 d argument rest hword hoption hend hhelp hlisting ih =>
      rw [readAll, if_neg hword, if_neg hoption, if_neg hend, if_neg hhelp, if_pos hlisting] at h
      rcases hlisting with rfl | rfl
      · exact @Passes.item _ _ _ (.listing false) _ trivial rfl (ih h)
      · exact @Passes.item _ _ _ (.listing true) _ trivial rfl (ih h)
  | case8 d argument rest hword hoption hend hhelp hlisting hset =>
      rw [readAll, if_neg hword, if_neg hoption, if_neg hend, if_neg hhelp, if_neg hlisting,
        hset] at h
      cases h
  | case9 d argument hword hoption hend hhelp hlisting s hset =>
      rw [readAll, if_neg hword, if_neg hoption, if_neg hend, if_neg hhelp, if_neg hlisting,
        hset] at h
      cases h
  | case10 d argument hword hoption hend hhelp hlisting s hset value rest d₁ hgive ih =>
      rw [readAll, if_neg hword, if_neg hoption, if_neg hend, if_neg hhelp, if_neg hlisting,
        hset] at h
      dsimp only at h
      rw [hgive] at h
      obtain rfl := ofOption?_eq_some_iff.mp hset
      exact @Passes.item _ _ _ (.setting s value) _ trivial (by rw [read, hgive]) (ih h)
  | case11 d argument hword hoption hend hhelp hlisting s hset value rest reason hgive =>
      rw [readAll, if_neg hword, if_neg hoption, if_neg hend, if_neg hhelp, if_neg hlisting,
        hset] at h
      dsimp only at h
      rw [hgive] at h
      cases h

/-- A question for help stays. -/
lemma Passes.help_eq_true (h : Passes d arguments d')
    (hhelp : d.help = true) : d'.help = true := by
  induction h with
  | done d => exact hhelp
  | help hword h ih => exact ih rfl
  | item hplain hread h ih => exact ih ((help_of_read hread).trans hhelp)
  | ended h =>
      rw [readNames_eq] at h
      exact (readItems_eq_ok_iff.mp h).help.trans hhelp

/-- **What has been read without an error** is the spelling of items, or asks for
help. -/
theorem Passes.exists_spells_or_asksHelp (h : Passes d arguments d') :
    (∃ items, Spells items arguments) ∨ AsksHelp arguments := by
  induction h with
  | done d => exact .inl ⟨[], .plain (by rintro _ ⟨⟩)⟩
  | @help d d' word rest hword h ih =>
      exact .inr ⟨[], word, rest, rfl, by rintro _ ⟨⟩, hword⟩
  | @item d d₁ d' item rest hplain hread h ih =>
      rcases ih with ⟨items, hspells⟩ | hhelp
      · exact .inl ⟨item :: items, hspells.cons hplain⟩
      · exact .inr (hhelp.cons hplain)
  | @ended d d' paths h =>
      have hended : Spells ([] ++ paths.map .name) ([].flatMap Item.spelled ++ "--" :: paths) :=
        .ended (by rintro _ ⟨⟩) paths
      exact .inl ⟨_, hended⟩

/-- Arguments that ask for help leave the question in the choices. -/
lemma help_of_asksHelp (hask : AsksHelp arguments) (hhelp : d.help = false)
    (h : d.readAll arguments = .ok d') : d'.help = true := by
  obtain ⟨items, word, rest, rfl, hplain, hword⟩ := hask
  rw [readAll_items hplain hhelp] at h
  cases hread : d.readItems items with
  | error e =>
      rw [hread] at h
      cases h
  | ok d₁ =>
      rw [hread] at h
      change d₁.readAll (word :: rest) = .ok d' at h
      rw [readAll, if_pos hword.symm] at h
      exact (passes_of_readAll h).help_eq_true rfl

end Choices

/-! ### The request -/

/-- The request of items that arguments spell. -/
lemma parse_of_spells {items : List Item} {arguments : List String} {a : Arguments}
    (h : Spells items arguments) :
    Request.parse arguments = .ok (.execute a) ↔ Says items a := by
  rw [says_iff, Request.parse, Choices.readAll_of_spells rfl h]
  constructor
  · intro hparse
    cases hread : Choices.blank.readItems items with
    | ok d =>
        rw [hread] at hparse
        exact ⟨d, Choices.readItems_eq_ok_iff.mp hread, hparse⟩
    | error e =>
        rw [hread] at hparse
        cases hparse
  · rintro ⟨d, hadds, hrequest⟩
    rw [Choices.readItems_eq_ok_iff.mpr hadds]
    exact hrequest

/-- A request that arguments make is to execute what they spell, if they do not ask
for help, and else it is for help. -/
lemma exists_spells_of_parse {arguments : List String} {request : Request}
    (h : Request.parse arguments = .ok request) :
    ¬ AsksHelp arguments ∧ (∃ items a, Spells items arguments ∧ request = .execute a) ∨
      AsksHelp arguments ∧ request = .help := by
  rw [Request.parse] at h
  cases hread : Choices.blank.readAll arguments with
  | error e =>
      rw [hread] at h
      cases h
  | ok d =>
      rw [hread] at h
      change d.request = .ok request at h
      by_cases hask : AsksHelp arguments
      · have hhelp := Choices.help_of_asksHelp hask rfl hread
        rw [Choices.request, if_pos hhelp] at h
        cases h
        exact .inr ⟨hask, rfl⟩
      · obtain ⟨items, hspells⟩ :=
          (Choices.passes_of_readAll hread).exists_spells_or_asksHelp.resolve_right hask
        rw [Choices.readAll_of_spells rfl hspells] at hread
        have hhelp : d.help = false := (Choices.readItems_eq_ok_iff.mp hread).help
        cases request with
        | execute a => exact .inl ⟨hask, items, a, hspells, rfl⟩
        | help =>
            rw [Choices.request, hhelp, if_neg Bool.false_ne_true] at h
            cases hprogram : d.program <;> simp [hprogram] at h

/-- **The grammar of the arguments**: arguments make a request to execute exactly
if they spell items that come to it. What they make is a request for help exactly
if they ask for it where an item could begin, so that arguments which do not are
accepted exactly if they spell items that come to something. The order in which
the items are spelled does not matter. -/
theorem request_follows_grammar :
    (∀ (arguments : List String) (a : Arguments),
      Request.parse arguments = .ok (.execute a) ↔
        ∃ items, Spells items arguments ∧ Says items a) ∧
      (∀ (arguments : List String) (request : Request), Request.parse arguments = .ok request →
        (request = .help ↔ AsksHelp arguments)) ∧
      (∀ arguments : List String, ¬ AsksHelp arguments →
        ((∃ request, Request.parse arguments = .ok request) ↔
          ∃ items a, Spells items arguments ∧ Says items a)) ∧
      (∀ (items items' : List Item) (arguments arguments' : List String), items.Perm items' →
        Spells items arguments → Spells items' arguments' →
          ∀ a, Request.parse arguments = .ok (.execute a) ↔
            Request.parse arguments' = .ok (.execute a)) ∧
      (∀ (text : String) (n : ℕ),
        Text.readUnsigned Choices.numberBound text = .ok n ↔ Text.Numeral (2 ^ 64) text n) ∧
      ∀ (text : String) (v : Verbosity), Verbosity.ofName? text = some v ↔ v.NamedBy text := by
  have hexecute : ∀ (arguments : List String) (a : Arguments),
      Request.parse arguments = .ok (.execute a) ↔
        ∃ items, Spells items arguments ∧ Says items a := by
    intro arguments a
    constructor
    · intro h
      rcases exists_spells_of_parse h with ⟨-, items, -, hspells, -⟩ | ⟨-, hhelp⟩
      · exact ⟨items, hspells, (parse_of_spells hspells).mp h⟩
      · cases hhelp
    · rintro ⟨items, hspells, hsays⟩
      exact (parse_of_spells hspells).mpr hsays
  refine ⟨hexecute, fun arguments request h => ?_, fun arguments hask => ⟨?_, ?_⟩, ?_,
    fun text n => Text.readUnsigned_eq_ok_iff (by decide) text,
    fun text v => Verbosity.ofName?_eq_some_iff⟩
  · rcases exists_spells_of_parse h with ⟨hask, items, a, -, rfl⟩ | ⟨hask, rfl⟩
    · exact iff_of_false Request.noConfusion hask
    · exact iff_of_true rfl hask
  · rintro ⟨request, h⟩
    rcases exists_spells_of_parse h with ⟨-, items, a, hspells, rfl⟩ | ⟨hhelp, -⟩
    · exact ⟨items, a, hspells, (parse_of_spells hspells).mp h⟩
    · exact absurd hhelp hask
  · rintro ⟨items, a, hspells, hsays⟩
    exact ⟨.execute a, (parse_of_spells hspells).mpr hsays⟩
  · intro items items' arguments arguments' hperm hspells hspells' a
    rw [parse_of_spells hspells, parse_of_spells hspells']
    exact ⟨fun h => h.of_perm hperm, fun h => h.of_perm hperm.symm⟩

/-- Options in two orders, and a program whose name is a word for help. -/
theorem request_follows_grammar_in_any_order :
    let a : Arguments := ⟨"help", ⟨7, 16, 65536⟩, true, .off⟩
    Request.parse ["--log-level", "oFF", "-d", "--stack-size", "+007", "--", "help"]
        = .ok (.execute a) ∧
      Request.parse ["-d", "--stack-size", "+007", "--log-level", "oFF", "--", "help"]
        = .ok (.execute a) := by
  intro a
  obtain ⟨-, -, -, hperm, -⟩ := request_follows_grammar
  have hlevelFirst : Request.parse
      ["--log-level", "oFF", "-d", "--stack-size", "+007", "--", "help"] = .ok (.execute a) := by
    decide +kernel
  have hspells := @Spells.ended
    [.setting .verbosity "oFF", .listing false, .setting (.limit .stack) "+007"]
    (by simp [Item.Plain]) ["help"]
  have hspells' := @Spells.ended
    [.listing false, .setting (.limit .stack) "+007", .setting .verbosity "oFF"]
    (by simp [Item.Plain]) ["help"]
  exact ⟨hlevelFirst, (hperm _ _ _ _ (by decide) hspells hspells' a).mp hlevelFirst⟩

end Bytecode.Command
