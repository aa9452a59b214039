import DocQuery.Plan.Text
import DocQuery.Proofs.ValueText

set_option autoImplicit false

/-! # The text of an expression determines the expression

An expression is written as a start, which is a value or begins with one of a few openings, and
calls that are made on it, each with a point in front. What a call is made on comes before it in the
text, so an expression cannot be told from its text alone while calls follow. It can be told
together with them (`Expr.ReadBack`): the induction passes from an expression that a call has made
to the one that the call is made on, with one more call that follows. An expression inside of
parentheses is followed by none, only by a comma or a closing bracket (`Expr.hasDelimitedText`). -/

namespace DocQuery

/-! ## Calls -/

theorem toList_commaList {α : Type} (write : α → String) (items : List α) (close : Char) :
    (commaList (items.map write)).toList ++ [close] =
      listed [' '] close (fun a => (write a).toList) items := by
  simp [commaList, listed, String.toList_intercalate, Function.comp_def]

/-- A call as it is written: a point, a name and arguments in parentheses. -/
def callText (name arguments : String) : String :=
  "." ++ name ++ "(" ++ arguments

/-- The name of a call ends at the parenthesis. -/
theorem callText_cancel {name name' arguments arguments' : String} {r s : List Char}
    (hname : name.toList.all Char.isAlpha = true) (hname' : name'.toList.all Char.isAlpha = true)
    (h : (callText name arguments).toList ++ r = (callText name' arguments').toList ++ s) :
    name = name' ∧ arguments.toList ++ r = arguments'.toList ++ s := by
  simp only [callText, String.toList_append, List.append_assoc] at h
  obtain ⟨hsame, hrest⟩ := run_cancel (List.all_eq_true.mp hname) (List.all_eq_true.mp hname')
    (by simp) (by simp) (List.append_cancel_left h)
  exact ⟨String.toList_injective hsame, List.append_cancel_left hrest⟩

/-- A call shows where it ends if its arguments do among the calls of the same name. -/
theorem selfDelimited_callText {α : Type} {name arguments : α → String}
    (hname : ∀ a, (name a).toList.all Char.isAlpha = true) {a : α}
    (ha : ∀ b r s, name a = name b → (arguments a).toList ++ r = (arguments b).toList ++ s →
      a = b ∧ r = s) :
    SelfDelimited (fun a => (callText (name a) (arguments a)).toList) a := by
  intro b r s h
  obtain ⟨hsame, harguments⟩ := callText_cancel (hname a) (hname b) h
  exact ha b r s hsame harguments

namespace Expr

/-- A call on an expression: what the text of the expression that it makes ends in. -/
inductive Call where
  | compare (comparison : Comparison) (right : Expr)
  | not
  | contains (values : List Value)
  | matchText (pattern : String)
  | mapItems (body : Expr)

/-- The expression with a call on it. -/
def call (e : Expr) : Call → Expr
  | .compare comparison right => .compare comparison e right
  | .not => .not e
  | .contains values => .contains e values
  | .matchText pattern => .matchText e pattern
  | .mapItems body => .mapItems e body

namespace Call

/-- The name of a call. -/
def name : Call → String
  | .compare comparison _ => comparison.call
  | .not => "not"
  | .contains _ => "contains"
  | .matchText _ => "match"
  | .mapItems _ => "map"

/-- The arguments of a call, with the closing parenthesis. -/
def arguments : Call → String
  | .compare _ right => right.text ++ ")"
  | .not => ")"
  | .contains values => commaList (values.map Value.compact) ++ ")"
  | .matchText pattern => quoted pattern ++ ")"
  | .mapItems body => "item => " ++ (body.text ++ ")")

/-- The call as it is written. -/
def text (c : Call) : String :=
  callText c.name c.arguments

theorem isAlpha_name (c : Call) : c.name.toList.all Char.isAlpha = true := by
  cases c with
  | compare comparison right => cases comparison <;> simp [name, Comparison.call]
  | _ => simp [name]

theorem exists_name_cons (c : Call) :
    ∃ d t, c.name.toList = d :: t ∧ d.isDigit = false := by
  cases c with
  | compare comparison right => cases comparison <;> simp [name, Comparison.call]
  | _ => simp [name]

end Call

theorem text_call (e : Expr) (c : Call) : (e.call c).text = e.text ++ c.text := by
  cases c <;>
    simp [call, text, Call.text, callText, Call.name, Call.arguments, ← String.append_assoc]

/-- The expression that the first of the calls is made on. -/
def start : Expr → Expr
  | .compare _ left _ => left.start
  | .not arg => arg.start
  | .contains collection _ => collection.start
  | .matchText subject _ => subject.start
  | .mapItems source _ => source.start
  | e => e

/-- The calls that are made on the start, from the first one. -/
def calls : Expr → List Call
  | .compare comparison left right => left.calls ++ [.compare comparison right]
  | .not arg => arg.calls ++ [.not]
  | .contains collection values => collection.calls ++ [.contains values]
  | .matchText subject pattern => subject.calls ++ [.matchText pattern]
  | .mapItems source body => source.calls ++ [.mapItems body]
  | _ => []

theorem start_call (e : Expr) (c : Call) : (e.call c).start = e.start := by
  cases c <;> rw [call, start]

theorem calls_call (e : Expr) (c : Call) : (e.call c).calls = e.calls ++ [c] := by
  cases c <;> rw [call, calls]

/-- Every expression is a start with calls on it. -/
theorem call_induction {motive : Expr → Prop} (hstart : ∀ e, e.calls = [] → motive e)
    (hcall : ∀ e c, motive e → motive (e.call c)) : ∀ e, motive e
  | .compare comparison left right =>
    hcall left (.compare comparison right) (call_induction hstart hcall left)
  | .not arg => hcall arg .not (call_induction hstart hcall arg)
  | .contains collection values =>
    hcall collection (.contains values) (call_induction hstart hcall collection)
  | .matchText subject pattern =>
    hcall subject (.matchText pattern) (call_induction hstart hcall subject)
  | .mapItems source body => hcall source (.mapItems body) (call_induction hstart hcall source)
  | .datum value => hstart (.datum value) rfl
  | .field binding name => hstart (.field binding name) rfl
  | .and args => hstart (.and args) rfl
  | .or args => hstart (.or args) rfl
  | .oneOf value list => hstart (.oneOf value list) rfl
  | .get table index key => hstart (.get table index key) rfl
  | .getAll table index key => hstart (.getAll table index key) rfl

theorem start_of_calls_eq_nil {e : Expr} (h : e.calls = []) : e.start = e := by
  cases e <;> simp [calls] at h <;> rfl

theorem calls_start (e : Expr) : e.start.calls = [] := by
  induction e using call_induction with
  | hstart e h => rwa [start_of_calls_eq_nil h]
  | hcall e c ih => rwa [start_call]

theorem foldl_calls (e : Expr) : e.calls.foldl call e.start = e := by
  induction e using call_induction with
  | hstart e h => rw [h, start_of_calls_eq_nil h, List.foldl_nil]
  | hcall e c ih =>
    rw [calls_call, start_call, List.foldl_append, ih, List.foldl_cons, List.foldl_nil]

theorem toList_text (e : Expr) :
    e.text.toList = e.start.text.toList ++ e.calls.flatMap (fun c => c.text.toList) := by
  induction e using call_induction with
  | hstart e h => rw [h, start_of_calls_eq_nil h, List.flatMap_nil, List.append_nil]
  | hcall e c ih =>
    rw [text_call, calls_call, start_call, String.toList_append, ih, List.flatMap_append,
      List.flatMap_singleton, List.append_assoc]

/-- The text of the expression shows which expression it is and where it ends. -/
abbrev HasDelimitedText (e : Expr) : Prop :=
  Delimited (fun e : Expr => e.text.toList) EndsItem e

/-- The text of the call shows which call it is and where it ends. -/
abbrev Call.HasDelimitedText (c : Call) : Prop :=
  SelfDelimited (fun c : Call => c.text.toList) c

/-! ## Starts -/

/-- What the text of a start begins with, unless it is a value. -/
def opening : Expr → String
  | .field .row _ => "r.row("
  | .field .element _ => "item("
  | .and _ => "r.and("
  | .or _ => "r.or("
  | .oneOf _ _ => "r.expr(["
  | .get _ _ _ => "r.table("
  | .getAll _ _ _ => "r.table("
  | _ => ""

/-- A look-up after the table, with what is made of the rows that are found. -/
def lookupRest (table index : String) (key : Expr) (ending : String) : String :=
  quoted table ++ (").getAll(" ++ (key.text ++ (", \x7bindex: " ++ (quoted index ++
    ("\x7d)" ++ ending)))))

/-- What comes after the opening. -/
def rest : Expr → String
  | .field _ name => quoted name ++ ")"
  | .and args => commaList (argTexts args) ++ ")"
  | .or args => commaList (argTexts args) ++ ")"
  | .oneOf value list =>
    commaList (list.map Value.compact) ++ "]" ++ (").contains(" ++ (value.text ++ ")"))
  | .get table index key => lookupRest table index key ".nth(0).default(null)"
  | .getAll table index key => lookupRest table index key ".coerceTo(\"array\")"
  | _ => ""

/-- The openings. -/
def openings : List String :=
  ["r.row(", "item(", "r.and(", "r.or(", "r.expr([", "r.table("]

theorem opening_cancel {a b : String} {r s : List Char} (ha : a ∈ openings) (hb : b ∈ openings)
    (h : a.toList ++ r = b.toList ++ s) : a = b ∧ r = s := by
  simp only [openings, List.mem_cons, List.not_mem_nil, or_false] at ha hb
  rcases ha with rfl | rfl | rfl | rfl | rfl | rfl <;>
    rcases hb with rfl | rfl | rfl | rfl | rfl | rfl <;> simp_all

/-- No opening begins as a value does, or as the end of a list does. -/
theorem startKind?_opening {a : String} (ha : a ∈ openings) :
    ∃ c t, a.toList = c :: t ∧ startKind? c = none ∧ c ≠ ')' := by
  simp only [openings, List.mem_cons, List.not_mem_nil, or_false] at ha
  rcases ha with rfl | rfl | rfl | rfl | rfl | rfl <;> simp [startKind?]

/-- A start is a value, or its text begins with its opening. -/
theorem start_cases {e : Expr} (h : e.calls = []) : (∃ v, e = .datum v) ∨
    e.opening ∈ openings ∧ e.text.toList = e.opening.toList ++ e.rest.toList := by
  cases e with
  | datum v => exact Or.inl ⟨v, rfl⟩
  | field binding name => cases binding <;> simp [opening, openings, text, rest]
  | and args => simp [opening, openings, text, rest]
  | or args => simp [opening, openings, text, rest]
  | oneOf value list => simp [opening, openings, text, rest]
  | get table index key => simp [opening, openings, text, lookupCall, rest, lookupRest]
  | getAll table index key => simp [opening, openings, text, lookupCall, rest, lookupRest]
  | _ => simp [calls] at h

/-- The text of the start can be told from the text of other starts and from the calls on it. -/
def StartDelimited (e : Expr) : Prop :=
  ∀ e' r s, e'.calls = [] → EndsValue r → EndsValue s →
    e.text.toList ++ r = e'.text.toList ++ s → e = e' ∧ r = s

theorem startDelimited_datum (v : Value) : StartDelimited (.datum v) := by
  intro e' r s hcalls hr hs h
  rcases start_cases hcalls with ⟨w, rfl⟩ | ⟨hopening, htext⟩
  · obtain ⟨rfl, hend⟩ := v.delimited_compact w r s hr hs h
    exact ⟨rfl, hend⟩
  · obtain ⟨c, t, hc, hkind, -⟩ := startKind?_opening hopening
    rw [htext, hc] at h
    exact absurd h (v.compact_append_ne hkind r _)

/-- Starts other than values are compared by what comes after their openings. -/
theorem StartDelimited.of_rest {e : Expr} (hcalls : e.calls = []) (hne : ∀ v, e ≠ .datum v)
    (hrest : ∀ e' r s, e.opening = e'.opening → EndsValue r → EndsValue s →
      e.rest.toList ++ r = e'.rest.toList ++ s → e = e' ∧ r = s) : StartDelimited e := by
  intro e' r s hcalls' hr hs h
  rcases start_cases hcalls with ⟨v, rfl⟩ | ⟨hopening, htext⟩
  · exact absurd rfl (hne v)
  · rcases start_cases hcalls' with ⟨v, rfl⟩ | ⟨hopening', htext'⟩
    · obtain ⟨c, t, hc, hkind, -⟩ := startKind?_opening hopening
      rw [htext, hc] at h
      exact absurd h.symm (v.compact_append_ne hkind s _)
    · rw [htext, htext', List.append_assoc, List.append_assoc] at h
      obtain ⟨hsame, h⟩ := opening_cancel hopening hopening' h
      exact hrest e' r s hsame hr hs h

theorem startDelimited_field (binding : Binding) (name : String) :
    StartDelimited (.field binding name) := by
  refine .of_rest rfl (by simp) (fun e' r s hopening hr hs h => ?_)
  cases e' with
  | field binding' name' =>
    have hbinding : binding = binding' := by
      cases binding <;> cases binding' <;> simp_all [opening]
    simp only [rest, String.toList_append, List.append_assoc] at h
    obtain ⟨rfl, hend⟩ := selfDelimited_quoted name name' _ _ h
    exact ⟨by rw [hbinding], List.append_cancel_left hend⟩
  | _ => cases binding <;> simp [opening] at hopening

theorem argTexts_eq_map (args : List Expr) : argTexts args = args.map text := by
  induction args with
  | nil => rfl
  | cons arg rest ih => rw [argTexts, ih, List.map_cons]

theorem text_append_ne_close (e : Expr) (r s : List Char) : e.text.toList ++ r ≠ ')' :: s := by
  rw [toList_text, List.append_assoc]
  rcases start_cases e.calls_start with ⟨v, hv⟩ | ⟨hopening, htext⟩
  · rw [hv]
    exact v.compact_append_ne rfl _ s
  · obtain ⟨c, t, hc, -, hne⟩ := startKind?_opening hopening
    rw [htext, hc]
    exact fun h => hne (List.cons.inj h).1

/-- The arguments of a connective are delimited by its closing parenthesis. -/
theorem selfDelimited_args {args : List Expr}
    (hargs : ∀ arg ∈ args, arg.HasDelimitedText) :
    SelfDelimited (fun args => (commaList (argTexts args) ++ ")").toList) args := by
  have hlisted : (fun args => (commaList (argTexts args) ++ ")").toList) =
      listed [' '] ')' (fun e : Expr => e.text.toList) := by
    funext args
    rw [String.toList_append, argTexts_eq_map]
    exact toList_commaList text args ')'
  rw [hlisted]
  exact .listed hargs (by simp) (by simp) (by decide) text_append_ne_close

/-- A list of values is delimited by its closing mark. -/
theorem selfDelimited_values (close : Char) (hends : ∀ r, EndsItem (close :: r))
    (hne : close ≠ ',') (hstart : startKind? close = none) (values : List Value) :
    SelfDelimited (fun values => (commaList (values.map Value.compact)).toList ++ [close])
      values := by
  have hlisted : (fun values => (commaList (values.map Value.compact)).toList ++ [close]) =
      listed [' '] close (fun v : Value => v.compact.toList) :=
    funext (fun values => toList_commaList Value.compact values close)
  rw [hlisted]
  exact .listed (fun v _ => v.delimited_compact) (fun _ => Or.inl (by simp))
    (fun r => (hends r).endsValue) hne (Value.compact_append_ne hstart)

section

variable {args : List Expr}
  (hargs : ∀ arg ∈ args, arg.HasDelimitedText)
include hargs

theorem startDelimited_and : StartDelimited (.and args) := by
  refine .of_rest rfl (by simp) (fun e' r s hopening hr hs h => ?_)
  cases e' with
  | and args' =>
    obtain ⟨rfl, hend⟩ := selfDelimited_args hargs args' r s h
    exact ⟨rfl, hend⟩
  | field binding name => cases binding <;> simp [opening] at hopening
  | _ => simp [opening] at hopening

theorem startDelimited_or : StartDelimited (.or args) := by
  refine .of_rest rfl (by simp) (fun e' r s hopening hr hs h => ?_)
  cases e' with
  | or args' =>
    obtain ⟨rfl, hend⟩ := selfDelimited_args hargs args' r s h
    exact ⟨rfl, hend⟩
  | field binding name => cases binding <;> simp [opening] at hopening
  | _ => simp [opening] at hopening

end

theorem startDelimited_oneOf {value : Expr} (list : List Value)
    (hvalue : value.HasDelimitedText) :
    StartDelimited (.oneOf value list) := by
  refine .of_rest rfl (by simp) (fun e' r s hopening hr hs h => ?_)
  cases e' with
  | oneOf value' list' =>
    have hlist := selfDelimited_values ']' (by simp) (by decide) rfl list
    obtain ⟨hlists, h⟩ := hlist list' ((").contains(" ++ (value.text ++ ")")).toList ++ r)
      ((").contains(" ++ (value'.text ++ ")")).toList ++ s) (by simpa [rest] using h)
    simp only [String.toList_append, List.append_assoc] at h
    obtain ⟨hvalues, h⟩ := hvalue value' _ _ (by simp) (by simp)
      (List.append_cancel_left h)
    exact ⟨by rw [hlists, hvalues], List.append_cancel_left h⟩
  | field binding name => cases binding <;> simp [opening] at hopening
  | _ => simp [opening] at hopening

section

variable {key : Expr} (hkey : key.HasDelimitedText)
include hkey

theorem lookupRest_cancel {key' : Expr} {table table' index index' ending ending' : String}
    {r s : List Char} (h : (lookupRest table index key ending).toList ++ r =
      (lookupRest table' index' key' ending').toList ++ s) :
    table = table' ∧ index = index' ∧ key = key' ∧ ending.toList ++ r = ending'.toList ++ s := by
  simp only [lookupRest, String.toList_append, List.append_assoc] at h
  obtain ⟨htable, h⟩ := selfDelimited_quoted table table' _ _ h
  obtain ⟨hkey, h⟩ := hkey key' _ _ (by simp) (by simp)
    (List.append_cancel_left h)
  obtain ⟨hindex, h⟩ := selfDelimited_quoted index index' _ _ (List.append_cancel_left h)
  exact ⟨htable, hindex, hkey, List.append_cancel_left h⟩

theorem startDelimited_get (table index : String) : StartDelimited (.get table index key) := by
  refine .of_rest rfl (by simp) (fun e' r s hopening hr hs h => ?_)
  cases e' with
  | get table' index' key' =>
    obtain ⟨rfl, rfl, rfl, hend⟩ := lookupRest_cancel hkey h
    exact ⟨rfl, List.append_cancel_left hend⟩
  | getAll table' index' key' =>
    obtain ⟨-, -, -, hend⟩ := lookupRest_cancel hkey h
    simp at hend
  | field binding name => cases binding <;> simp [opening] at hopening
  | _ => simp [opening] at hopening

theorem startDelimited_getAll (table index : String) :
    StartDelimited (.getAll table index key) := by
  refine .of_rest rfl (by simp) (fun e' r s hopening hr hs h => ?_)
  cases e' with
  | get table' index' key' =>
    obtain ⟨-, -, -, hend⟩ := lookupRest_cancel hkey h
    simp at hend
  | getAll table' index' key' =>
    obtain ⟨rfl, rfl, rfl, hend⟩ := lookupRest_cancel hkey h
    exact ⟨rfl, List.append_cancel_left hend⟩
  | field binding name => cases binding <;> simp [opening] at hopening
  | _ => simp [opening] at hopening

end

/-! ## Calls on a start -/

namespace Call

theorem text_append_ne (c : Call) {r : List Char} (hr : EndsItem r) (t : List Char) :
    c.text.toList ++ t ≠ r := by
  rintro rfl
  simp [text, callText] at hr

/-- What comes after a start: calls, and then the end of the item. -/
theorem endsValue_flatMap {r : List Char} (hr : EndsItem r) (cs : List Call) :
    EndsValue (cs.flatMap (fun c => c.text.toList) ++ r) := by
  cases cs with
  | nil => exact hr.endsValue
  | cons c cs =>
    obtain ⟨d, t, hname, hd⟩ := c.exists_name_cons
    refine Or.inr ⟨d, t ++ '(' :: (c.arguments.toList ++
      (cs.flatMap (fun c => c.text.toList) ++ r)), ?_, hd⟩
    simp [text, callText, hname]

theorem name_compare_ne {comparison : Comparison} {right : Expr} {c : Call}
    (hc : ∀ comparison' right', c ≠ .compare comparison' right') :
    (compare comparison right).name ≠ c.name := by
  cases c with
  | compare comparison' right' => exact absurd rfl (hc comparison' right')
  | _ => cases comparison <;> simp [name, Comparison.call]

theorem hasDelimitedText_compare (comparison : Comparison) {right : Expr}
    (hright : right.HasDelimitedText) :
    (compare comparison right).HasDelimitedText := by
  refine selfDelimited_callText isAlpha_name (fun c' r s hname h => ?_)
  cases c' with
  | compare comparison' right' =>
    have hcomparison : comparison = comparison' := by
      cases comparison <;> cases comparison' <;> simp_all [name, Comparison.call]
    simp only [arguments, String.toList_append, List.append_assoc] at h
    obtain ⟨rfl, hend⟩ := hright right' _ _ (by simp) (by simp) h
    exact ⟨by rw [hcomparison], List.append_cancel_left hend⟩
  | _ => exact absurd hname (name_compare_ne (by simp))

theorem hasDelimitedText_not : Call.not.HasDelimitedText := by
  refine selfDelimited_callText isAlpha_name (fun c' r s hname h => ?_)
  cases c' with
  | not => exact ⟨rfl, List.append_cancel_left h⟩
  | compare comparison' right' => exact absurd hname.symm (name_compare_ne (by simp))
  | _ => simp [name] at hname

theorem hasDelimitedText_contains (values : List Value) : (contains values).HasDelimitedText := by
  refine selfDelimited_callText isAlpha_name (fun c' r s hname h => ?_)
  cases c' with
  | contains values' =>
    have hvalues := selfDelimited_values ')' (by simp) (by decide) rfl values
    obtain ⟨rfl, hend⟩ := hvalues values' r s (by simpa [arguments] using h)
    exact ⟨rfl, hend⟩
  | compare comparison' right' => exact absurd hname.symm (name_compare_ne (by simp))
  | _ => simp [name] at hname

theorem hasDelimitedText_matchText (pattern : String) : (matchText pattern).HasDelimitedText := by
  refine selfDelimited_callText isAlpha_name (fun c' r s hname h => ?_)
  cases c' with
  | matchText pattern' =>
    simp only [arguments, String.toList_append, List.append_assoc] at h
    obtain ⟨rfl, hend⟩ := selfDelimited_quoted pattern pattern' _ _ h
    exact ⟨rfl, List.append_cancel_left hend⟩
  | compare comparison' right' => exact absurd hname.symm (name_compare_ne (by simp))
  | _ => simp [name] at hname

theorem hasDelimitedText_mapItems {body : Expr}
    (hbody : body.HasDelimitedText) :
    (mapItems body).HasDelimitedText := by
  refine selfDelimited_callText isAlpha_name (fun c' r s hname h => ?_)
  cases c' with
  | mapItems body' =>
    simp only [arguments, String.toList_append, List.append_assoc] at h
    obtain ⟨rfl, hend⟩ := hbody body' _ _ (by simp) (by simp)
      (List.append_cancel_left h)
    exact ⟨rfl, List.append_cancel_left hend⟩
  | compare comparison' right' => exact absurd hname.symm (name_compare_ne (by simp))
  | _ => simp [name] at hname

end Call

/-! ## Every expression -/

/-- The expression and any calls on it can be told from the text, up to the end of the item. -/
def ReadBack (e : Expr) : Prop :=
  ∀ cs : List Call, (∀ c ∈ cs, c.HasDelimitedText) →
    ∀ e' r s, EndsItem r → EndsItem s →
      e.text.toList ++ (cs.flatMap (fun c => c.text.toList) ++ r) = e'.text.toList ++ s →
      cs.foldl call e = e' ∧ r = s

theorem ReadBack.delimited {e : Expr} (h : e.ReadBack) : e.HasDelimitedText :=
  fun e' r s hr hs => h [] (by simp) e' r s hr hs

theorem StartDelimited.readBack {e : Expr} (h : StartDelimited e) : e.ReadBack := by
  intro cs hcs e' r s hr hs hsame
  rw [e'.toList_text, List.append_assoc] at hsame
  obtain ⟨rfl, hcalls⟩ := h e'.start _ _ e'.calls_start (Call.endsValue_flatMap hr cs)
    (Call.endsValue_flatMap hs e'.calls) hsame
  have hdelimited : ∀ c ∈ cs, Delimited (fun c : Call => c.text.toList) (fun _ => True) c :=
    fun c hc => (hcs c hc).delimited _
  obtain ⟨rfl, hend⟩ := flatMap_cancel hdelimited (fun _ => trivial) (fun _ => trivial)
    (fun c t => c.text_append_ne hr t) (fun c t => c.text_append_ne hs t) hcalls
  exact ⟨e'.foldl_calls, hend⟩

theorem ReadBack.call {e : Expr} (h : e.ReadBack) (c : Call) (hc : c.HasDelimitedText) :
    (e.call c).ReadBack := by
  intro cs hcs e' r s hr hs hsame
  rw [text_call, String.toList_append, List.append_assoc] at hsame
  refine h (c :: cs) (List.forall_mem_cons.mpr ⟨hc, hcs⟩) e' r s hr hs ?_
  rwa [List.flatMap_cons, List.append_assoc]

mutual

theorem readBack : ∀ e : Expr, e.ReadBack
  | .datum value => (startDelimited_datum value).readBack
  | .field binding name => (startDelimited_field binding name).readBack
  | .and args => (startDelimited_and (args_delimited args)).readBack
  | .or args => (startDelimited_or (args_delimited args)).readBack
  | .oneOf value list => (startDelimited_oneOf list (readBack value).delimited).readBack
  | .get table index key => (startDelimited_get (readBack key).delimited table index).readBack
  | .getAll table index key =>
    (startDelimited_getAll (readBack key).delimited table index).readBack
  | .compare comparison left right => (readBack left).call (.compare comparison right)
    (Call.hasDelimitedText_compare comparison (readBack right).delimited)
  | .not arg => (readBack arg).call .not Call.hasDelimitedText_not
  | .contains collection values =>
    (readBack collection).call (.contains values) (Call.hasDelimitedText_contains values)
  | .matchText subject pattern =>
    (readBack subject).call (.matchText pattern) (Call.hasDelimitedText_matchText pattern)
  | .mapItems source body => (readBack source).call (.mapItems body)
    (Call.hasDelimitedText_mapItems (readBack body).delimited)

theorem args_delimited : ∀ args : List Expr, ∀ arg ∈ args, arg.HasDelimitedText
  | [] => by simp
  | arg :: rest => List.forall_mem_cons.mpr ⟨(readBack arg).delimited, args_delimited rest⟩

end

theorem hasDelimitedText (e : Expr) : e.HasDelimitedText :=
  (readBack e).delimited

end Expr

end DocQuery
