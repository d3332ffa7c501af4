import Mathlib.Data.List.TakeDrop
import Mathlib.Data.List.TakeWhile
import TransactionKey.CommandLine.Parse
import TransactionKey.Proofs.Except
import TransactionKey.Tsig.Signing

/-!
# Credentials on the command line

The credentials of a shared key have three options.  Each can be given once, with its value after `=`
or in the next argument (`GivenBy`), and arguments that are read give the credentials just these
values.  The name must not stand alone; the other two may, and then the query is not signed.

* `scan_holds`          what arguments add to the credentials that were given before;
* `parse_credentials`   the credentials of a command line and of its request.
-/

namespace TransactionKey

theorem Credentials.complete?_eq_some {c : Credentials} {name algorithm secret : String} :
    c.complete? = some (name, algorithm, secret) ↔
      c.name = some name ∧ c.algorithm = some algorithm ∧ c.secret = some secret := by
  obtain ⟨_ | _, _ | _, _ | _⟩ := c <;> simp [Credentials.complete?]

theorem Signing.ofRequest_unsigned {r : Request} (h : r.credentials.complete? = none)
    (halgorithm : Tkey.isGss r.algorithm = false) : ofRequest r = .ok .unsigned := by
  rw [ofRequest, halgorithm, h]
  rfl

namespace CommandLine

/-! ## the options -/

/-- an option for the credentials of a shared key -/
inductive KeyOption where
  | name | algorithm | secret
deriving DecidableEq, Repr

namespace KeyOption

def parameter : KeyOption → Parameter
  | .name => .tsigName
  | .algorithm => .tsigAlgorithm
  | .secret => .tsigSecret

/-- the word after two dashes -/
def word : KeyOption → String
  | .name => "tsig-name"
  | .algorithm => "tsig-algorithm"
  | .secret => "tsig-secret"

def value? (o : KeyOption) (c : Credentials) : Option String :=
  match o with
  | .name => c.name
  | .algorithm => c.algorithm
  | .secret => c.secret

/-- an argument gives the option a value, by itself or with the argument after it -/
def StandsIn (o : KeyOption) (arg : String) (next : Option String) (text : String) : Prop :=
  arg = "--" ++ o.word ++ "=" ++ text ∨ arg = "--" ++ o.word ∧ next = some text

/-- some argument gives the option a value -/
def GivenBy (o : KeyOption) (args : List String) (text : String) : Prop :=
  "--" ++ o.word ++ "=" ++ text ∈ args ∨ ["--" ++ o.word, text] <:+: args

variable {o : KeyOption} {text : String}

theorem not_givenBy_nil : ¬ o.GivenBy [] text := by
  rintro (hmem | hinfix)
  · cases hmem
  · cases List.infix_nil.1 hinfix

theorem givenBy_cons {arg : String} {args : List String} :
    o.GivenBy (arg :: args) text ↔ o.StandsIn arg args.head? text ∨ o.GivenBy args text := by
  have hprefix : [text] <+: args ↔ args.head? = some text := by
    cases args with
    | nil => simp
    | cons next args => simp [List.cons_prefix_cons, eq_comm]
  rw [GivenBy, GivenBy, StandsIn, List.mem_cons, List.infix_cons_iff, List.cons_prefix_cons, hprefix,
    eq_comm (a := arg), eq_comm (a := arg)]
  exact or_or_or_comm

theorem ofLong?_eq_parameter {word : String} :
    Item.ofLong? word = some (.parameter o.parameter) ↔ word = o.word := by
  constructor
  · intro h
    unfold Item.ofLong? at h
    split at h <;> cases o <;> first | rfl | cases h
  · rintro rfl
    cases o <;> rfl

theorem ofShort?_ne_parameter {c : Char} : Item.ofShort? c ≠ some (.parameter o.parameter) := by
  intro h
  unfold Item.ofShort? at h
  split at h <;> cases o <;> cases h

theorem equals_not_mem_word : '=' ∉ o.word.toList := by cases o <;> decide

end KeyOption

namespace Given

/-- the credentials among what has been given -/
def credentials (g : Given) : Credentials := ⟨g.tsigName, g.tsigAlgorithm, g.tsigSecret⟩

/-- the option has its value already, or is pending and gets it from `args` -/
def Holds (g : Given) (pending : Pending) (args : List String) (o : KeyOption) (text : String) :
    Prop :=
  o.value? g.credentials = some text ∨ pending = some (o.parameter, some text) ∨
    pending = some (o.parameter, none) ∧ args.head? = some text

variable {g g₁ : Given} {pending pending₁ : Pending} {o : KeyOption} {text : String}

/-! ## giving -/

theorem set_own {value : String} (h : g.set o.parameter value = .ok g₁) :
    o.value? g.credentials = none ∧ o.value? g₁.credentials = some value := by
  have honce {old given : Option String} (h : once old (.ok value) = .ok given) :
      old = none ∧ given = some value := by
    cases old with
    | none => exact ⟨rfl, (Except.ok.inj h).symm⟩
    | some _ => cases h
  cases o
  all_goals
    obtain ⟨given, hgiven, h⟩ := bind_eq_ok.1 h
    obtain rfl := pure_eq_ok.1 h
    exact honce hgiven

theorem set_other {p : Parameter} {value : String} (hp : p ≠ o.parameter)
    (h : g.set p value = .ok g₁) : o.value? g₁.credentials = o.value? g.credentials := by
  cases p
  all_goals
    obtain ⟨given, -, h⟩ := bind_eq_ok.1 h
    obtain rfl := pure_eq_ok.1 h
    cases o <;> first | rfl | exact absurd rfl hp

theorem set_value? {p : Parameter} {value : String} (h : g.set p value = .ok g₁) :
    o.value? g₁.credentials = some text ↔
      o.value? g.credentials = some text ∨ p = o.parameter ∧ value = text := by
  by_cases hp : p = o.parameter
  · subst hp
    obtain ⟨hold, hnew⟩ := set_own h
    simp [hold, hnew]
  · simp [set_other hp h, hp]

theorem raise_value? {f : Flag} (h : g.raise f = .ok g₁) :
    o.value? g₁.credentials = o.value? g.credentials := by
  cases f
  case help | version => cases h
  all_goals
    rw [raise] at h
    split at h
    · cases h
    · obtain rfl := Except.ok.inj h
      rfl

/-- only an option with a value can be settled, so it does not matter which arguments follow -/
theorem settle_value? (h : g.settle pending = .ok g₁) (args : List String) :
    o.value? g₁.credentials = some text ↔ g.Holds pending args o text := by
  match pending with
  | none =>
    obtain rfl := Except.ok.inj h
    simp [Holds]
  | some (p, none) => cases h
  | some (p, some value) =>
    rw [set_value? h, Holds]
    simp

/-! ## arguments -/

theorem holds_none {args : List String} :
    g.Holds none args o text ↔ o.value? g.credentials = some text := by
  simp [Holds]

theorem holds_awaiting {p : Parameter} {args : List String} :
    g.Holds (some (p, none)) args o text ↔
      o.value? g.credentials = some text ∨ p = o.parameter ∧ args.head? = some text := by
  simp [Holds]

theorem span_value {word : List Char} (h : '=' ∉ word) (value : List Char) :
    (word ++ '=' :: value).span (· != '=') = (word, '=' :: value) := by
  have hword : ∀ c ∈ word, (c != '=') = true := fun c hc => bne_iff_ne.2 fun e => h (e ▸ hc)
  rw [List.span_eq_takeWhile_dropWhile, List.takeWhile_append_of_pos hword,
    List.dropWhile_append_of_pos hword]
  simp

theorem span_word {word : List Char} (h : '=' ∉ word) : word.span (· != '=') = (word, []) := by
  have hword : ∀ c ∈ word, (c != '=') = true := fun c hc => bne_iff_ne.2 fun e => h (e ▸ hc)
  rw [List.span_eq_takeWhile_dropWhile, List.takeWhile_eq_self_iff.2 hword,
    List.dropWhile_eq_nil_iff.2 hword]

theorem ofList_eq_iff {cs : List Char} {s : String} : String.ofList cs = s ↔ cs = s.toList := by
  rw [← String.toList_inj, String.toList_ofList]

theorem ofLong?_iff {word : List Char} {item : Item}
    (h : Item.ofLong? (String.ofList word) = some item) :
    item = .parameter o.parameter ↔ word = o.word.toList := by
  rw [← ofList_eq_iff, ← KeyOption.ofLong?_eq_parameter, h, Option.some_inj]

theorem append_value_inj {word word' value value' : List Char} (h : '=' ∉ word) (h' : '=' ∉ word') :
    word ++ '=' :: value = word' ++ '=' :: value' ↔ word = word' ∧ value = value' := by
  constructor
  · intro heq
    have hspan := congrArg (List.span (· != '=')) heq
    rw [span_value h, span_value h'] at hspan
    obtain ⟨hword, hvalue⟩ := Prod.mk.inj hspan
    exact ⟨hword, List.tail_eq_of_cons_eq hvalue⟩
  · rintro ⟨rfl, rfl⟩
    rfl

/-- an argument with its value in it -/
theorem long_value_holds {word value : List Char} (hword : '=' ∉ word)
    (h : g.long pending (word ++ '=' :: value) = .ok (g₁, pending₁)) (rest args : List String) :
    g₁.Holds pending₁ args o text ↔
      g.Holds pending rest o text ∨ word = o.word.toList ∧ value = text.toList := by
  rw [long, span_value hword] at h
  dsimp only at h
  cases hitem : Item.ofLong? (String.ofList word) with
  | none =>
    rw [hitem] at h
    cases h
  | some item =>
    have hown := ofLong?_iff (o := o) hitem
    rw [hitem] at h
    cases item with
    | flag f => cases h
    | parameter p =>
      obtain ⟨g', hsettle, h⟩ := bind_eq_ok.1 h
      obtain ⟨g'', hset, h⟩ := bind_eq_ok.1 h
      obtain ⟨rfl, rfl⟩ := Prod.mk.inj (pure_eq_ok.1 h)
      rw [holds_none, set_value? hset, settle_value? hsettle rest, ← hown, Item.parameter.injEq,
        ofList_eq_iff]

/-- an argument whose value is the next one, or that has none -/
theorem long_word_holds {word : List Char} (hword : '=' ∉ word)
    (h : g.long pending word = .ok (g₁, pending₁)) (rest args : List String) :
    g₁.Holds pending₁ args o text ↔
      g.Holds pending rest o text ∨ word = o.word.toList ∧ args.head? = some text := by
  rw [long, span_word hword] at h
  dsimp only at h
  cases hitem : Item.ofLong? (String.ofList word) with
  | none =>
    rw [hitem] at h
    cases h
  | some item =>
    have hown := ofLong?_iff (o := o) hitem
    rw [hitem] at h
    cases item with
    | flag f =>
      obtain ⟨g', hsettle, h⟩ := bind_eq_ok.1 h
      obtain ⟨g'', hraise, h⟩ := bind_eq_ok.1 h
      obtain ⟨rfl, rfl⟩ := Prod.mk.inj (pure_eq_ok.1 h)
      rw [holds_none, raise_value? hraise, settle_value? hsettle rest, ← hown]
      simp
    | parameter p =>
      obtain ⟨g', hsettle, h⟩ := bind_eq_ok.1 h
      obtain ⟨rfl, rfl⟩ := Prod.mk.inj (pure_eq_ok.1 h)
      rw [holds_awaiting, settle_value? hsettle rest, ← hown, Item.parameter.injEq]

/-- short options are no options for credentials -/
theorem short_holds {cs : List Char} (hcs : cs = [] → pending = none)
    (h : g.short pending cs = .ok (g₁, pending₁)) (rest args : List String) :
    g₁.Holds pending₁ args o text ↔ g.Holds pending rest o text := by
  induction cs generalizing g pending with
  | nil =>
    obtain ⟨rfl, rfl⟩ := Prod.mk.inj (Except.ok.inj h)
    rw [hcs rfl, holds_none, holds_none]
  | cons c cs ih =>
    rw [short] at h
    split at h
    · cases h
    · rename_i p hitem
      have hp : p ≠ o.parameter := by
        rintro rfl
        exact KeyOption.ofShort?_ne_parameter hitem
      split at h
      · obtain ⟨g', hsettle, h⟩ := bind_eq_ok.1 h
        obtain ⟨rfl, rfl⟩ := Prod.mk.inj (pure_eq_ok.1 h)
        rw [holds_awaiting, settle_value? hsettle rest]
        simp [hp]
      · obtain ⟨g', hsettle, h⟩ := bind_eq_ok.1 h
        obtain ⟨g'', hset, h⟩ := bind_eq_ok.1 h
        obtain ⟨rfl, rfl⟩ := Prod.mk.inj (pure_eq_ok.1 h)
        rw [holds_none, set_other hp hset, settle_value? hsettle rest]
    · obtain ⟨g', hsettle, h⟩ := bind_eq_ok.1 h
      obtain ⟨g'', hraise, h⟩ := bind_eq_ok.1 h
      rw [ih (fun _ => rfl) h, holds_none, raise_value? hraise, settle_value? hsettle rest]

theorem value_holds {arg : String} (h : g.value pending arg = .ok (g₁, pending₁))
    (args : List String) : g₁.Holds pending₁ args o text ↔ g.Holds pending (arg :: args) o text := by
  unfold value at h
  split at h
  · obtain ⟨rfl, rfl⟩ := Prod.mk.inj (Except.ok.inj h)
    simp [Holds]
  · cases h

/-! ## all arguments -/

theorem standsIn_iff {arg : String} {cs : List Char} (harg : arg.toList = '-' :: '-' :: cs)
    {next : Option String} : o.StandsIn arg next text ↔
      cs = o.word.toList ++ '=' :: text.toList ∨ cs = o.word.toList ∧ next = some text := by
  have hdashes : "--".toList = ['-', '-'] := rfl
  have hequals : "=".toList = ['='] := rfl
  rw [KeyOption.StandsIn, ← String.toList_inj, ← String.toList_inj, harg]
  simp only [String.toList_append, hdashes, hequals, List.cons_append, List.nil_append,
    List.append_assoc, List.cons.injEq, true_and]

theorem not_standsIn {arg : String} (harg : ∀ cs, arg.toList ≠ '-' :: '-' :: cs)
    {next : Option String} : ¬ o.StandsIn arg next text := by
  rintro (rfl | ⟨rfl, -⟩)
  · exact harg (o.word.toList ++ ('=' :: text.toList)) (by simp)
  · exact harg o.word.toList (by simp)

theorem long_holds {arg : String} {cs : List Char} (harg : arg.toList = '-' :: '-' :: cs)
    (h : g.long pending cs = .ok (g₁, pending₁)) (rest args : List String) :
    g₁.Holds pending₁ args o text ↔
      g.Holds pending rest o text ∨ o.StandsIn arg args.head? text := by
  rw [standsIn_iff harg]
  by_cases hequals : '=' ∈ cs
  · obtain ⟨word, value, rfl, hword⟩ := List.eq_append_cons_of_mem hequals
    have hne : word ++ '=' :: value ≠ o.word.toList := fun heq =>
      KeyOption.equals_not_mem_word (heq ▸ hequals)
    rw [long_value_holds hword h rest, append_value_inj hword KeyOption.equals_not_mem_word]
    simp only [hne, false_and, or_false]
  · have hne : cs ≠ o.word.toList ++ '=' :: text.toList := by
      rintro rfl
      exact hequals (by simp)
    rw [long_word_holds hequals h rest]
    simp only [hne, false_or]

theorem scan_holds {args : List String} (h : g.scan pending args = .ok g₁) :
    o.value? g₁.credentials = some text ↔ g.Holds pending args o text ∨ o.GivenBy args text := by
  -- one argument turns what is given and pending into the same of the arguments after it
  induction args generalizing g pending with
  | nil =>
    rw [settle_value? h []]
    simp [KeyOption.not_givenBy_nil]
  | cons arg args ih =>
    rw [scan] at h
    rw [KeyOption.givenBy_cons]
    split at h
    · -- two dashes alone can only be the last argument
      rename_i hdashes
      split at h
      · rename_i hlast
        obtain rfl := List.isEmpty_iff.1 hlast
        have hstands : ¬ o.StandsIn arg ([] : List String).head? text := by
          rw [standsIn_iff hdashes]
          simp
        rw [settle_value? h [arg]]
        simp only [hstands, KeyOption.not_givenBy_nil, or_false]
      · cases h
    · rename_i cs harg
      obtain ⟨⟨g', pending'⟩, hlong, h⟩ := bind_eq_ok.1 h
      rw [ih h, long_holds harg hlong (arg :: args), or_assoc]
    · -- no option for credentials has a letter
      rename_i c cs _ hdash harg
      have hstands : ¬ o.StandsIn arg args.head? text := by
        refine not_standsIn fun cs' heq => ?_
        rw [harg] at heq
        exact hdash (List.head_eq_of_cons_eq (List.tail_eq_of_cons_eq heq))
      obtain ⟨⟨g', pending'⟩, hshort, h⟩ := bind_eq_ok.1 h
      rw [ih h, short_holds (fun hnil => absurd hnil (List.cons_ne_nil c cs)) hshort (arg :: args)]
      simp only [hstands, false_or]
    · rename_i hlong _
      have hstands : ¬ o.StandsIn arg args.head? text := not_standsIn hlong
      obtain ⟨⟨g', pending'⟩, hvalue, h⟩ := bind_eq_ok.1 h
      rw [ih h, value_holds hvalue]
      simp only [hstands, false_or]

theorem complete_credentials {c : CommandLine} (h : g.complete = .ok c) :
    c.credentials = g.credentials ∧ g.sufficient = true := by
  rw [complete] at h
  split at h
  · cases h
  · split at h
    · rename_i hsufficient
      obtain rfl := Except.ok.inj h
      exact ⟨rfl, hsufficient⟩
    · cases h

end Given

/-! ## the whole -/

theorem request_credentials {c : CommandLine} {r : Request} (h : c.request = .ok r) :
    r.credentials = c.credentials := by
  obtain ⟨material, -, h⟩ := bind_eq_ok.1 h
  obtain rfl := pure_eq_ok.1 h
  rfl

/-- a name that was given did not come alone, so only a missing name leaves credentials incomplete -/
theorem complete?_eq_none {g : Given} (h : g.sufficient = true) :
    g.credentials.complete? = none ↔ g.credentials.name = none := by
  rw [Given.sufficient] at h
  cases hname : g.tsigName with
  | none => simp [Given.credentials, Credentials.complete?, hname]
  | some name =>
    simp only [hname, Option.isNone_some, Bool.false_or, Bool.and_eq_true] at h
    obtain ⟨algorithm, halgorithm⟩ := Option.isSome_iff_exists.1 h.1
    obtain ⟨secret, hsecret⟩ := Option.isSome_iff_exists.1 h.2
    simp [Given.credentials, Credentials.complete?, hname, halgorithm, hsecret]

/-- **the credentials are the values given; they are complete just if a name is, and go into the
request as they are, which without a name is not signed** -/
theorem parse_credentials {args : List String} {c : CommandLine} (h : parse args = .ok c) :
    (∀ o text, KeyOption.value? o c.credentials = some text ↔ o.GivenBy args text) ∧
    (∀ name algorithm secret, c.credentials.complete? = some (name, algorithm, secret) ↔
      KeyOption.name.GivenBy args name ∧ KeyOption.algorithm.GivenBy args algorithm ∧
        KeyOption.secret.GivenBy args secret) ∧
    (c.credentials.complete? = none ↔ ∀ text, ¬ KeyOption.name.GivenBy args text) ∧
    ∀ r, c.request = .ok r → r.credentials = c.credentials ∧
      ((∀ text, ¬ KeyOption.name.GivenBy args text) → Tkey.isGss r.algorithm = false →
        Signing.ofRequest r = .ok .unsigned) := by
  obtain ⟨g, hscan, h⟩ := bind_eq_ok.1 h
  obtain ⟨hc, hsufficient⟩ := Given.complete_credentials h
  have hgiven (o : KeyOption) (text : String) :
      o.value? c.credentials = some text ↔ o.GivenBy args text := by
    have hempty : o.value? ({} : Given).credentials = none := by cases o <;> rfl
    rw [hc, Given.scan_holds hscan, Given.holds_none, hempty]
    simp
  have hnone : c.credentials.complete? = none ↔ ∀ text, ¬ KeyOption.name.GivenBy args text := by
    rw [hc, complete?_eq_none hsufficient, ← hc, Option.eq_none_iff_forall_ne_some]
    exact forall_congr' fun text => not_congr (hgiven .name text)
  refine ⟨hgiven, fun name algorithm secret => ?_, hnone, fun r hr => ?_⟩
  · rw [Credentials.complete?_eq_some, ← hgiven, ← hgiven, ← hgiven]
    rfl
  · have hr := request_credentials hr
    exact ⟨hr, fun hname => Signing.ofRequest_unsigned (hr ▸ hnone.2 hname)⟩

/-- a value after `=`, and two in arguments of their own -/
theorem parse_credentials_whole :
    let args := ["-k", "k.", "--tsig-secret=c2VjcmV0", "-s", "ns1", "--tsig-name", "update-key.",
      "--tsig-algorithm", "hmac-sha256"]
    ∃ c r, parse args = .ok c ∧ c.request = .ok r ∧
      r.credentials.complete? = some ("update-key.", "hmac-sha256", "c2VjcmV0") := by
  intro args
  let credentials : Credentials := ⟨some "update-key.", some "hmac-sha256", some "c2VjcmV0"⟩
  let c : CommandLine := { server := "ns1", keyName := "k.", credentials }
  have hparse : parse args = .ok c := rfl
  obtain ⟨-, hcomplete, -, hrequest⟩ := parse_credentials hparse
  have hname : KeyOption.name.GivenBy args "update-key." := .inr (by decide)
  have halgorithm : KeyOption.algorithm.GivenBy args "hmac-sha256" := .inr (by decide)
  have hsecret : KeyOption.secret.GivenBy args "c2VjcmV0" := .inl (by decide)
  refine ⟨c, _, hparse, rfl, ?_⟩
  rw [(hrequest _ rfl).1]
  exact (hcomplete _ _ _).2 ⟨hname, halgorithm, hsecret⟩

/-- an algorithm and a secret without a name are read, and go unused -/
theorem parse_secretAlone :
    let args := ["-s", "ns1", "-k", "k.", "-a", "hmac-sha256.", "--tsig-algorithm", "hmac-sha256",
      "--tsig-secret=c2VjcmV0"]
    KeyOption.algorithm.GivenBy args "hmac-sha256" ∧ KeyOption.secret.GivenBy args "c2VjcmV0" ∧
      ∃ c r, parse args = .ok c ∧ c.request = .ok r ∧ r.credentials.complete? = none ∧
        Signing.ofRequest r = .ok .unsigned := by
  let credentials : Credentials := ⟨none, some "hmac-sha256", some "c2VjcmV0"⟩
  let c : CommandLine :=
    { server := "ns1", keyName := "k.", algorithm := "hmac-sha256.", credentials }
  have hgss : ¬ Tkey.isGss "hmac-sha256." = true := by decide +kernel
  exact ⟨.inr (by decide), .inl (by decide), c, _, rfl, rfl, rfl, if_neg hgss⟩

end CommandLine

end TransactionKey
