import HtmlTemplate.Proofs.Template.Compiled

/-!
# Hygiene — no function of the generated code captures a name

A name in the code of a template stands for the context, for a helper, or for the parameter of a
function around it: the element of a loop, or the text in the frame of an attribute.
`Template.mentions` tells what stands in the code of a template, in which functions, and
`Template.occurrences_code` that these are the names there.  As variables are told apart from each
other and from all other names, a function around a name has a parameter that is spelled like it
only if this is what the name stands for (`Template.hygienic_of_mem`).
-/

namespace HtmlTemplate

open Text

namespace Expr

/-! ## Occurrences -/

mutual

/-- The names that an expression reads from left to right, each with the parameters of the functions
around it, the innermost first. -/
def occurrences (around : List String) : Expr → List (String × List String)
  | literal _ => []
  | name word => [(word, around)]
  | tuple items => occurrencesOfAll around items
  | member target _ => target.occurrences around
  | call target arguments => target.occurrences around ++ occurrencesOfAll around arguments
  | function parameter? body => body.occurrences (parameter?.toList ++ around)
  | negation operand => operand.occurrences around
  | plus left right => left.occurrences around ++ right.occurrences around

def occurrencesOfAll (around : List String) : List Expr → List (String × List String)
  | [] => []
  | e :: es => e.occurrences around ++ occurrencesOfAll around es

end

section Occurrences

variable (around : List String)

theorem occurrencesOfAll_append (es fs : List Expr) :
    occurrencesOfAll around (es ++ fs) =
      occurrencesOfAll around es ++ occurrencesOfAll around fs := by
  induction es with
  | nil => rfl
  | cons e es ih => simp only [List.cons_append, occurrencesOfAll, ih, List.append_assoc]

theorem occurrencesOfAll_singleton (e : Expr) :
    occurrencesOfAll around [e] = e.occurrences around := by
  simp only [occurrencesOfAll, List.append_nil]

theorem occurrences_helperCall (h : Helper) (arguments : List Expr) :
    (helperCall h arguments).occurrences around =
      (h.name, around) :: occurrencesOfAll around arguments := rfl

theorem occurrences_joined (items : List Expr) :
    (joined items).occurrences around = occurrencesOfAll around items := by
  simp only [joined, occurrences, List.nil_append, occurrencesOfAll_singleton]

theorem occurrencesOfAll_literals (texts : List String) :
    occurrencesOfAll around (texts.map literal) = [] := by
  induction texts with
  | nil => rfl
  | cons text texts ih =>
    rw [List.map_cons, occurrencesOfAll, occurrences, List.nil_append, ih]

end Occurrences

end Expr

/-! ## What names stand for -/

/-- The parameter of a function in the code of a template. -/
inductive Parameter where
  /-- The element of a loop. -/
  | element (binding : String)
  /-- The text in the frame of an attribute. -/
  | framed
  deriving DecidableEq

/-- What a name in the code of a template stands for. -/
inductive Origin where
  | context
  | helper (h : Helper)
  | parameter (p : Parameter)
  deriving DecidableEq

/-- A name in the code of a template: what it stands for, and the parameters of the functions around
it, the innermost first. -/
structure Mention where
  origin : Origin
  around : List Parameter

def Parameter.word : Parameter → String
  | element binding => Binding.variableOf binding
  | framed => "v"

def Origin.word (contextName : String) : Origin → String
  | context => contextName
  | helper h => h.name
  | parameter p => p.word

/-- How a name and the parameters around it are spelled. -/
def Mention.spelled (contextName : String) (m : Mention) : String × List String :=
  (m.origin.word contextName, m.around.map Parameter.word)

/-- Names in the bodies of loops. -/
def mentionsIn (live : List String) (origins : List Origin) : List Mention :=
  origins.map fun origin => ⟨origin, live.map .element⟩

section Mentions

variable (live : List String)

/-- What reads a path from something. -/
def accessOrigins (root : Origin) (path : List String) : List Origin :=
  if path.isEmpty then [root] else [.helper .lookup, root]

/-- What reads a path: from the element of the innermost loop that binds its head, or else from the
context. -/
def pathOrigins (path : String) : List Origin :=
  match Path.segments path with
  | [] => [.context]
  | head :: rest =>
    if head ∈ live then accessOrigins (.parameter (.element head)) rest
    else accessOrigins .context (head :: rest)

/-- What reads the paths among the segments of a composite value. -/
def segmentOrigins : Bool → List String → List Origin
  | _, [] => []
  | true, _ :: rest => segmentOrigins false rest
  | false, path :: rest => .helper .ifDefined :: pathOrigins live path ++ segmentOrigins true rest

/-- The names in the code of an insertion. -/
def Insertion.mentions : Insertion → List Mention
  | .raw _ => []
  | .body path => mentionsIn live (.helper .renderBody :: pathOrigins live path)
  | .comment path => mentionsIn live (.helper .ifDefined :: pathOrigins live path)
  | .composite segments =>
    mentionsIn live (segmentOrigins live true (Generate.quoteSegments segments))
  | .optional _ path =>
    mentionsIn live (.helper .ifDefined :: pathOrigins live path) ++
      [⟨.parameter .framed, .framed :: live.map .element⟩]
  | .flag _ path => mentionsIn live (.helper .ifCheck :: pathOrigins live path)

/-- What stands in the call of a block in front of its bodies. -/
def Head.origins : Head → List Origin
  | .conditional path _ emptiness =>
    .helper .ifCheck :: (if emptiness then [.helper .isNonempty] else []) ++ pathOrigins live path
  | .loop path _ => .helper .loop :: pathOrigins live path

end Mentions

/-- The names in the code of a template.  Only the first body of a loop is in its function. -/
def Template.mentions : List String → Template → List Mention
  | _, .done => []
  | live, .insert insertion rest => insertion.mentions live ++ rest.mentions live
  | live, .block head body rest =>
    mentionsIn live (head.origins live) ++ body.mentions (head.within live) ++ rest.mentions live
  | live, .choice head body other rest =>
    mentionsIn live (head.origins live) ++ body.mentions (head.within live) ++
      other.mentions live ++ rest.mentions live

/-! ## The names of the code -/

section Code

open HtmlTemplate.Expr

variable (contextName : String) (live : List String)

/-- Names in the bodies of loops as they are spelled there. -/
def spelledIn (origins : List Origin) : List (String × List String) :=
  (mentionsIn live origins).map (Mention.spelled contextName)

theorem spelledIn_eq (origins : List Origin) :
    spelledIn contextName live origins =
      origins.map fun origin => (origin.word contextName, live.map Binding.variableOf) := by
  simp only [spelledIn, mentionsIn, Mention.spelled, List.map_map, Function.comp_def]
  rfl

theorem occurrences_access (root : Origin) (path : List String) :
    (access (root.word contextName) path).occurrences (live.map Binding.variableOf) =
      spelledIn contextName live (accessOrigins root path) := by
  rw [spelledIn_eq]
  unfold access accessOrigins
  split
  · rfl
  · rw [occurrences_helperCall, occurrencesOfAll, occurrencesOfAll_literals]
    rfl

theorem occurrences_pathCode (path : String) :
    (pathCode contextName live path).occurrences (live.map Binding.variableOf) =
      spelledIn contextName live (pathOrigins live path) := by
  unfold pathCode pathOrigins
  cases Path.segments path with
  | nil =>
    rw [spelledIn_eq]
    rfl
  | cons head rest =>
    by_cases h : head ∈ live
    · simp only [if_pos h]
      exact occurrences_access contextName live (.parameter (.element head)) rest
    · simp only [if_neg h]
      exact occurrences_access contextName live .context (head :: rest)

theorem spelledIn_cons_helper (h : Helper) (origins : List Origin) :
    spelledIn contextName live (.helper h :: origins) =
      (h.name, live.map Binding.variableOf) :: spelledIn contextName live origins := by
  simp only [spelledIn_eq, List.map_cons]
  rfl

theorem spelledIn_append (first second : List Origin) :
    spelledIn contextName live (first ++ second) =
      spelledIn contextName live first ++ spelledIn contextName live second := by
  simp only [spelledIn_eq, List.map_append]

/-- A helper is called with what reads a path first. -/
theorem occurrences_call (h : Helper) (path : String) (arguments : List Expr) :
    (helperCall h (pathCode contextName live path :: arguments)).occurrences
        (live.map Binding.variableOf) =
      spelledIn contextName live (.helper h :: pathOrigins live path) ++
        occurrencesOfAll (live.map Binding.variableOf) arguments := by
  rw [occurrences_helperCall, occurrencesOfAll, occurrences_pathCode, spelledIn_cons_helper,
    List.cons_append]

theorem occurrences_segmentCode (segments : List String) : ∀ literal : Bool,
    occurrencesOfAll (live.map Binding.variableOf)
        (segmentCode contextName live literal segments) =
      spelledIn contextName live (segmentOrigins live literal segments) := by
  induction segments with
  | nil =>
    intro literal
    cases literal <;> rfl
  | cons segment rest ih =>
    intro literal
    cases literal with
    | true =>
      rw [segmentCode, segmentOrigins]
      split
      · exact ih false
      · rw [occurrencesOfAll, occurrences, List.nil_append, ih false]
    | false =>
      rw [segmentCode, segmentOrigins, spelledIn_append, ← ih true, occurrencesOfAll,
        occurrences_call, occurrencesOfAll, List.append_nil]

theorem occurrences_insertion (insertion : Insertion) :
    occurrencesOfAll (live.map Binding.variableOf) (insertion.code contextName live) =
      (insertion.mentions live).map (Mention.spelled contextName) := by
  cases insertion with
  | raw text => rfl
  | body path =>
    rw [Insertion.code, occurrencesOfAll_singleton, occurrences_call]
    exact List.append_nil _
  | comment path =>
    rw [Insertion.code, occurrencesOfAll_singleton, occurrences_call]
    exact List.append_nil _
  | composite segments => exact occurrences_segmentCode contextName live _ true
  | optional key path =>
    -- Behind the path comes the frame, which reads its own parameter between two literals.
    rw [Insertion.code, occurrencesOfAll_singleton, occurrences_call, Insertion.mentions,
      List.map_append]
    have hword : Parameter.word ∘ Parameter.element = Binding.variableOf := rfl
    simp only [attributeCode, occurrencesOfAll, occurrences, Option.toList_some, List.map_cons,
      List.map_nil, List.map_map, List.append_nil, List.nil_append, Mention.spelled, hword]
    rfl
  | flag key path =>
    rw [Insertion.code, occurrencesOfAll_singleton, occurrences_call]
    exact List.append_nil _

theorem occurrences_testCode (path : String) (inverted emptiness : Bool) :
    (testCode contextName live path inverted emptiness).occurrences
        (live.map Binding.variableOf) =
      spelledIn contextName live
        ((if emptiness then [.helper .isNonempty] else []) ++ pathOrigins live path) := by
  have hpath := occurrences_pathCode contextName live path
  have hcall := occurrences_call contextName live .isNonempty path []
  rw [occurrencesOfAll, List.append_nil] at hcall
  cases inverted <;> cases emptiness
  · exact hpath
  · exact hcall
  · exact hpath
  · exact hcall

/-- A block's call has the names of its head, and then those of its bodies, the first one of which
is in the function of the block. -/
theorem occurrences_head (head : Head) (body others : List Expr) :
    (head.code contextName live body others).occurrences (live.map Binding.variableOf) =
      spelledIn contextName live (head.origins live) ++
        occurrencesOfAll ((head.within live).map Binding.variableOf) body ++
        occurrencesOfAll (live.map Binding.variableOf) others := by
  cases head with
  | conditional path inverted emptiness =>
    rw [Head.code, occurrences_helperCall, occurrencesOfAll, occurrences_testCode,
      occurrencesOfAll, occurrences, occurrences_joined, Head.origins, List.cons_append,
      spelledIn_cons_helper]
    simp only [List.cons_append, List.append_assoc]
    rfl
  | loop path binding =>
    rw [Head.code, occurrences_call, occurrencesOfAll, occurrences, occurrences_joined,
      Head.origins, List.append_assoc]
    rfl

end Code

/-- The names in the code of a template, spelled as they are there. -/
theorem Template.occurrences_code (contextName : String) (t : Template) : ∀ live : List String,
    Expr.occurrencesOfAll (live.map Binding.variableOf) (t.code contextName live) =
      (t.mentions live).map (Mention.spelled contextName) := by
  induction t with
  | done =>
    intro live
    rfl
  | insert insertion rest ih =>
    intro live
    rw [Template.code, Expr.occurrencesOfAll_append, occurrences_insertion, ih, Template.mentions,
      List.map_append]
  | block head body rest ihbody ihrest =>
    intro live
    rw [Template.code, Expr.occurrencesOfAll, occurrences_head, ihbody, ihrest,
      Expr.occurrencesOfAll, List.append_nil, Template.mentions, List.map_append, List.map_append]
    rfl
  | choice head body other rest ihbody ihother ihrest =>
    intro live
    have hother : Expr.occurrencesOfAll (live.map Binding.variableOf)
        [.function none (Expr.joined (other.code contextName live))] =
          (other.mentions live).map (Mention.spelled contextName) := by
      rw [Expr.occurrencesOfAll_singleton, Expr.occurrences, Expr.occurrences_joined]
      exact ihother live
    rw [Template.code, Expr.occurrencesOfAll, occurrences_head, ihbody, ihrest, hother,
      Template.mentions, List.map_append, List.map_append, List.map_append]
    rfl

/-! ## Captures -/

theorem Binding.variableOf_ne_framed (b : String) : variableOf b ≠ Parameter.framed.word := by
  intro h
  have hv := startsLikeVariable_variableOf b
  rw [h] at hv
  exact absurd hv (by unfold startsLikeVariable; decide)

/-- Different parameters are spelled differently. -/
theorem Parameter.word_inj {p q : Parameter} : p.word = q.word ↔ p = q := by
  cases p with
  | element a =>
    cases q with
    | element b => exact Binding.variableOf_inj.trans (Parameter.element.injEq a b).to_iff.symm
    | framed => exact iff_of_false (Binding.variableOf_ne_framed a) nofun
  | framed =>
    cases q with
    | element b => exact iff_of_false (Binding.variableOf_ne_framed b).symm nofun
    | framed => exact iff_of_true rfl rfl

namespace Mention

/-- Whether a name is bound by what it stands for. -/
structure Hygienic (contextName : String) (m : Mention) : Prop where
  /-- A parameter around the name is spelled like it only if the name stands for it. -/
  word_iff : ∀ p ∈ m.around, p.word = m.origin.word contextName ↔ m.origin = .parameter p
  /-- A name that stands for a parameter is in a function with this parameter. -/
  mem_around : ∀ p, m.origin = .parameter p → p ∈ m.around

/-- Where names are in the code of a template: in the frame of an attribute only its own parameter,
and in the bodies of loops the context, helpers, and elements of these loops. -/
inductive Placed : Mention → Prop
  | framed (live : List String) : Placed ⟨.parameter .framed, .framed :: live.map .element⟩
  | context (live : List String) : Placed ⟨.context, live.map .element⟩
  | helper (h : Helper) (live : List String) : Placed ⟨.helper h, live.map .element⟩
  | element {binding : String} {live : List String} :
      binding ∈ live → Placed ⟨.parameter (.element binding), live.map .element⟩

theorem Placed.hygienic {name : String} (hn : Generator.checkContextName name = .ok ())
    {m : Mention} (h : m.Placed) : m.Hygienic (normalName name) := by
  -- What is no parameter is spelled like none, and parameters are told apart by their spelling.
  have hparameter : ∀ p q : Parameter,
      p.word = (Origin.parameter q).word (normalName name) ↔ Origin.parameter q = .parameter p :=
    fun p q => Parameter.word_inj.trans (by rw [Origin.parameter.injEq, eq_comm])
  cases h with
  | framed live =>
    refine ⟨fun p _ => hparameter p .framed, fun p hp => ?_⟩
    cases hp
    exact List.mem_cons_self
  | context live =>
    refine ⟨fun p hp => iff_of_false ?_ nofun, nofun⟩
    obtain ⟨b, -, rfl⟩ := List.mem_map.1 hp
    exact (Generator.normalName_ne_variableOf hn b).symm
  | helper h live =>
    refine ⟨fun p hp => iff_of_false ?_ nofun, nofun⟩
    obtain ⟨b, -, rfl⟩ := List.mem_map.1 hp
    exact (helper_ne_variableOf h b).symm
  | element hmem =>
    refine ⟨fun p _ => hparameter p _, fun p hp => ?_⟩
    cases hp
    exact List.mem_map_of_mem hmem

end Mention

section Placed

open Mention

variable {live : List String}

/-- Whether what names stand for is there in the bodies of loops. -/
def PlacedIn (live : List String) (origins : List Origin) : Prop :=
  ∀ origin ∈ origins, Mention.Placed ⟨origin, live.map .element⟩

theorem PlacedIn.cons_helper (h : Helper) {origins : List Origin} (ho : PlacedIn live origins) :
    PlacedIn live (.helper h :: origins) :=
  List.forall_mem_cons.2 ⟨.helper h live, ho⟩

theorem PlacedIn.mentionsIn {origins : List Origin} (ho : PlacedIn live origins) :
    ∀ m ∈ mentionsIn live origins, m.Placed := by
  intro m hm
  obtain ⟨origin, hmem, rfl⟩ := List.mem_map.1 hm
  exact ho origin hmem

theorem placedIn_access {root : Origin} (hroot : Mention.Placed ⟨root, live.map .element⟩)
    (path : List String) : PlacedIn live (accessOrigins root path) := by
  have hone : PlacedIn live [root] := List.forall_mem_singleton.2 hroot
  unfold accessOrigins
  split
  · exact hone
  · exact hone.cons_helper .lookup

theorem placedIn_path (path : String) : PlacedIn live (pathOrigins live path) := by
  unfold pathOrigins
  cases Path.segments path with
  | nil => exact List.forall_mem_singleton.2 (.context live)
  | cons head rest =>
    by_cases h : head ∈ live
    · simp only [if_pos h]
      exact placedIn_access (.element h) rest
    · simp only [if_neg h]
      exact placedIn_access (.context live) (head :: rest)

theorem placedIn_segments (segments : List String) : ∀ literal : Bool,
    PlacedIn live (segmentOrigins live literal segments) := by
  induction segments with
  | nil =>
    intro literal
    cases literal <;> exact List.forall_mem_nil _
  | cons segment rest ih =>
    intro literal
    cases literal with
    | true => exact ih false
    | false =>
      exact PlacedIn.cons_helper .ifDefined
        (List.forall_mem_append.2 ⟨placedIn_path segment, ih true⟩)

theorem placedIn_head (head : Head) : PlacedIn live (head.origins live) := by
  cases head with
  | conditional path inverted emptiness =>
    have hpath : PlacedIn live (pathOrigins live path) := placedIn_path path
    cases emptiness with
    | false => exact hpath.cons_helper .ifCheck
    | true => exact (hpath.cons_helper .isNonempty).cons_helper .ifCheck
  | loop path binding => exact (placedIn_path path).cons_helper .loop

theorem placed_insertion (insertion : Insertion) : ∀ m ∈ insertion.mentions live, m.Placed := by
  have hcall : ∀ (h : Helper) (path : String),
      ∀ m ∈ mentionsIn live (.helper h :: pathOrigins live path), m.Placed :=
    fun h path => ((placedIn_path path).cons_helper h).mentionsIn
  cases insertion with
  | raw text => exact List.forall_mem_nil _
  | body path => exact hcall .renderBody path
  | comment path => exact hcall .ifDefined path
  | composite segments => exact (placedIn_segments _ true).mentionsIn
  | optional key path =>
    exact List.forall_mem_append.2
      ⟨hcall .ifDefined path, List.forall_mem_singleton.2 (.framed live)⟩
  | flag key path => exact hcall .ifCheck path

end Placed

theorem Template.placed_of_mem (t : Template) : ∀ {live : List String},
    ∀ m ∈ t.mentions live, m.Placed := by
  induction t with
  | done =>
    intro live
    exact List.forall_mem_nil _
  | insert insertion rest ih =>
    intro live
    exact List.forall_mem_append.2 ⟨placed_insertion insertion, ih⟩
  | block head body rest ihbody ihrest =>
    intro live
    rw [Template.mentions, List.forall_mem_append, List.forall_mem_append]
    exact ⟨⟨(placedIn_head head).mentionsIn, ihbody⟩, ihrest⟩
  | choice head body other rest ihbody ihother ihrest =>
    intro live
    rw [Template.mentions, List.forall_mem_append, List.forall_mem_append, List.forall_mem_append]
    exact ⟨⟨⟨(placedIn_head head).mentionsIn, ihbody⟩, ihother⟩, ihrest⟩

/-- No name in the code of a template is captured. -/
theorem Template.hygienic_of_mem {name : String} (hn : Generator.checkContextName name = .ok ())
    (t : Template) {live : List String} {m : Mention} (hm : m ∈ t.mentions live) :
    m.Hygienic (normalName name) :=
  (t.placed_of_mem m hm).hygienic hn

/-! ## Variables -/

namespace Binding

/-- The variable of an accepted binding is an identifier, and no name of another kind. -/
theorem check_variable {contextName other binding variableName : String}
    (h : check contextName binding = .ok variableName)
    (ho : Generator.checkContextName other = .ok ()) :
    isIdentifier variableName = true ∧ isKeyword variableName = false ∧
      normalName variableName = variableName ∧ variableName ≠ other ∧
      variableName ≠ normalName other ∧ (∀ helper : Helper, variableName ≠ helper.name) ∧
      variableName ≠ "v" := by
  obtain ⟨rfl, hname, -, hidentifier⟩ := check_ok h
  have hv := startsLikeVariable_variableOf binding
  refine ⟨hidentifier, not_isKeyword hv, normalName_variableOf hname, ?_,
    (Generator.normalName_ne_variableOf ho binding).symm, fun helper => ?_,
    variableOf_ne_framed binding⟩
  · exact fun he => (Generator.checkContextName_ok ho).2.1 (he ▸ hv)
  · exact (helper_ne_variableOf helper binding).symm

end Binding

/-- Different bindings have different variables.  The variable of a binding that is accepted is an
identifier and no keyword, is read as it is spelled, and is told apart from every accepted name of a
context, in any spelling, from every helper, and from the parameter in the frame of an attribute.
So in the code of whatever is compiled, a function around a name binds it only if the name stands
for the parameter of this function.  The context and the helpers are bound by none of them.  (The
template's own parameter, which is the context, is not one of these functions.) -/
theorem Compiled.variables_hygienic :
    (∀ a b, Binding.variableOf a = Binding.variableOf b ↔ a = b) ∧
    (∀ contextName other binding variableName,
      Binding.check contextName binding = .ok variableName →
      Generator.checkContextName other = .ok () →
      variableName = Binding.variableOf binding ∧ isIdentifier variableName = true ∧
        isKeyword variableName = false ∧ normalName variableName = variableName ∧
        variableName ≠ other ∧ variableName ≠ normalName other ∧
        (∀ helper : Helper, variableName ≠ helper.name) ∧ variableName ≠ "v") ∧
    (∀ name ps c, Compiled.ofParts name ps = .ok c →
      ∃ t e, Template.ofParts? ps = some t ∧ Expr.ofText c.expression = .ok e ∧
        e.occurrences [] = (t.mentions []).map (Mention.spelled (normalName name)) ∧
        ∀ m ∈ t.mentions [], m.Hygienic (normalName name)) := by
  refine ⟨fun a b => Binding.variableOf_inj, ?_, ?_⟩
  · intro contextName other binding variableName h ho
    exact ⟨(Binding.check_ok h).1, Binding.check_variable h ho⟩
  · intro name ps c hc
    obtain ⟨hn, -⟩ := ofParts_ok hc
    obtain ⟨t, ht, -, htext⟩ := exists_template hc
    refine ⟨t, _, ht, htext, ?_, fun m hm => t.hygienic_of_mem hn hm⟩
    rw [Expr.occurrences_joined]
    exact t.occurrences_code (normalName name) []

/-- A context that is called like the parameter in a frame, and a binding that is called like a
helper. -/
theorem Compiled.variables_hygienic_frame :
    Binding.check "v" "lookup" = .ok "_lookup" ∧ "_lookup" ≠ "v" ∧
    ∃ c e, Compiled.ofParts "v" [.loop "items" "lookup", .optional "id" "lookup.id",
        .body "title", .close] = .ok c ∧
      Expr.ofText c.expression = .ok e ∧
      e.occurrences [] =
        [("loop", []), ("lookup", []), ("v", []),
          ("if_defined", ["_lookup"]), ("lookup", ["_lookup"]), ("_lookup", ["_lookup"]),
          ("v", ["v", "_lookup"]),
          ("render_body", ["_lookup"]), ("lookup", ["_lookup"]), ("v", ["_lookup"])] := by
  have hcheck : Binding.check "v" "lookup" = .ok "_lookup" := by with_unfolding_all rfl
  have hn : Generator.checkContextName "v" = .ok () := by with_unfolding_all rfl
  obtain ⟨-, hvariable, hcode⟩ := variables_hygienic
  obtain ⟨-, -, -, -, hne, -⟩ := hvariable "v" "v" "lookup" "_lookup" hcheck hn
  obtain ⟨c, hc⟩ : ∃ c, Compiled.ofParts "v" [.loop "items" "lookup", .optional "id" "lookup.id",
      .body "title", .close] = .ok c := ⟨_, rfl⟩
  obtain ⟨t, e, ht, he, hoccurrences, -⟩ := hcode "v" _ c hc
  refine ⟨hcheck, hne, c, e, hc, he, hoccurrences.trans ?_⟩
  obtain rfl : .block (.loop "items" "lookup") (.insert (.optional "id" "lookup.id")
      (.insert (.body "title") .done)) .done = t := Option.some.inj ht
  with_unfolding_all rfl

end HtmlTemplate
