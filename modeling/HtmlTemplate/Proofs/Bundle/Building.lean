import HtmlTemplate.CommandLine.Run
import HtmlTemplate.Proofs.Bundle.FunctionName
import HtmlTemplate.Proofs.Template.Compiled
import HtmlTemplate.Proofs.Text.Utf8
import Mathlib.Data.List.Forall2
import Mathlib.Data.List.Nodup

/-!
# Building — all files of a folder become functions, or none does

A file is sound if its name, its bytes and its text are.  Every sound file becomes a function,
unless an earlier one has its name (`Bundle.within_functionFor`).  From file to file the functions
that were made so far carry over; the first file that offends ends the work with its error
(`Bundle.within_functionsOf`).  So a module has a function for each of its files, or there is no
module and nothing is written (`Bundle.build_all_or_nothing`).
-/

namespace HtmlTemplate

open Text FunctionName

/-! ## Pairs of lists -/

section Related

variable {α β : Type} {R : α → β → Prop} {l : List α} {m : List β}

theorem exists_of_forall₂_left (h : List.Forall₂ R l m) {a : α} (ha : a ∈ l) : ∃ b ∈ m, R a b := by
  induction h with
  | nil => cases ha
  | cons hab _ ih =>
    rcases List.mem_cons.1 ha with rfl | ha
    · exact ⟨_, List.mem_cons_self, hab⟩
    · obtain ⟨b, hb, hr⟩ := ih ha
      exact ⟨b, List.mem_cons_of_mem _ hb, hr⟩

theorem exists_of_forall₂_right (h : List.Forall₂ R l m) {b : β} (hb : b ∈ m) : ∃ a ∈ l, R a b := by
  obtain ⟨a, ha, hr⟩ := exists_of_forall₂_left h.flip hb
  exact ⟨a, ha, hr⟩

/-- What holds between any two of a list holds between those they are related to. -/
theorem pairwise_of_forall₂ {S : α → α → Prop} {T : β → β → Prop} (h : List.Forall₂ R l m)
    (hm : m.Pairwise T) (hst : ∀ a b a' b', R a b → R a' b' → T b b' → S a a') : l.Pairwise S := by
  induction h with
  | nil => exact .nil
  | cons hab hrest ih =>
    obtain ⟨hfirst, hm⟩ := List.pairwise_cons.1 hm
    refine List.pairwise_cons.2 ⟨fun a' ha' => ?_, ih hm⟩
    obtain ⟨b', hb', hr⟩ := exists_of_forall₂_left hrest ha'
    exact hst _ _ _ _ hab hr (hfirst b' hb')

end Related

namespace Folder

variable (folder : Folder)

/-- The template files are those of the folder, whatever their order. -/
theorem templates_perm :
    folder.templates.Perm (folder.files.filter fun file => isTemplate file.1) :=
  List.mergeSort_perm _ _

theorem mem_templates {file : String × List UInt8} :
    file ∈ folder.templates ↔ file ∈ folder.files ∧ isTemplate file.1 = true := by
  rw [folder.templates_perm.mem_iff, List.mem_filter]

/-- The template files are in the order of their names. -/
theorem templates_sorted : folder.templates.Pairwise fun a b => a.1 ≤ b.1 := by
  let precedes (a b : String × List UInt8) : Bool := !decide (b.1 < a.1)
  have hiff : ∀ a b, precedes a b = true ↔ a.1 ≤ b.1 := fun a b => by
    rw [Bool.not_eq_true', decide_eq_false_iff_not, String.not_lt]
  have htrans : ∀ a b c, precedes a b = true → precedes b c = true → precedes a c = true :=
    fun a b c hab hbc => (hiff a c).2 (String.le_trans ((hiff a b).1 hab) ((hiff b c).1 hbc))
  have htotal : ∀ a b, (precedes a b || precedes b a) = true := fun a b => by
    rw [Bool.or_eq_true, hiff, hiff]
    exact String.le_total a.1 b.1
  exact (List.pairwise_mergeSort htrans htotal _).imp fun h => (hiff _ _).1 h

/-- The template files are those that a list in strict order has. -/
theorem templates_eq {files : List (String × List UInt8)}
    (hperm : files.Perm (folder.files.filter fun file => isTemplate file.1))
    (hsorted : files.Pairwise fun a b => a.1 < b.1) : folder.templates = files := by
  have htemplates : folder.templates.Perm files := folder.templates_perm.trans hperm.symm
  have hnames : (files.map (·.1)).Nodup := by
    rw [List.nodup_iff_pairwise_ne, List.pairwise_map]
    refine hsorted.imp ?_
    rintro a b hlt (heq : a.1 = b.1)
    exact String.lt_irrefl b.1 (heq ▸ hlt)
  refine htemplates.eq_of_pairwise ?_ folder.templates_sorted
    (hsorted.imp fun hlt => String.not_lt.1 (String.lt_asymm hlt))
  intro a b ha hb hab hba
  exact List.inj_on_of_nodup_map hnames (htemplates.mem_iff.1 ha) hb (String.le_antisymm hab hba)

end Folder

theorem Text.Builder.build_append (out : Builder) (piece : String) :
    (out.append piece).build = out.build ++ piece := by
  unfold append build
  split
  · rename_i hempty
    rw [String.isEmpty_iff.1 hempty, String.append_empty]
  · rw [Array.toList_push, String.join_append, String.join_cons, String.join_nil,
      String.append_empty]

namespace Bundle

/-! ## Files -/

/-- The configuration that a file is compiled in. -/
def configOf (contextName file : String) : Config := { contextName, sourceFile := some file }

/-- A file that can become a function: its stem has a letter or digit, its bytes are UTF-8, and
their text compiles. -/
structure Sound (contextName : String) (file : String × List UInt8) : Prop where
  named : HasWord (stem file.1)
  compiles : ∃ cs c, file.2 = cs.flatMap String.utf8EncodeChar ∧
    Compiled.ofSource (configOf contextName file.1) (String.ofList (unifyLineEnds cs)) = .ok c

/-- Files that would give one function. -/
def SameName (a b : String × List UInt8) : Prop :=
  ∃ name, ofStem (stem a.1) = .ok name ∧ ofStem (stem b.1) = .ok name

theorem SameName.symm {a b : String × List UInt8} : SameName a b → SameName b a
  | ⟨name, ha, hb⟩ => ⟨name, hb, ha⟩

/-- The function that a file becomes. -/
structure Makes (contextName : String) (file : String × List UInt8) (f : TemplateFunction) :
    Prop where
  origin : f.file = file.1
  name : ofStem (stem file.1) = .ok f.name
  compiled : ∃ cs, file.2 = cs.flatMap String.utf8EncodeChar ∧
    Compiled.ofSource (configOf contextName file.1) (String.ofList (unifyLineEnds cs)) =
      .ok f.compiled

/-- Why a file cannot become a function after these ones.  The reasons are looked for in this
order. -/
inductive RefusesFile (contextName : String) (earlier : List TemplateFunction)
    (file : String × List UInt8) : Error → Prop
  | unnamed : ¬ HasWord (stem file.1) →
    RefusesFile contextName earlier file (.unnamedTemplate (stem file.1))
  | duplicate {f : TemplateFunction} : f ∈ earlier → ofStem (stem file.1) = .ok f.name →
    RefusesFile contextName earlier file (.duplicateTemplate f.name f.file file.1)
  | undecodable {name : String} {fault : Utf8Fault} :
    ofStem (stem file.1) = .ok name → name ∉ earlier.map (·.name) →
    decodeUtf8 file.2 = .error fault → RefusesFile contextName earlier file (.undecodable fault)
  | uncompilable {name : String} {cs : List Char} {e : Error} :
    ofStem (stem file.1) = .ok name → name ∉ earlier.map (·.name) →
    file.2 = cs.flatMap String.utf8EncodeChar →
    Compiled.ofSource (configOf contextName file.1) (String.ofList (unifyLineEnds cs)) = .error e →
    RefusesFile contextName earlier file e

variable {contextName : String}

theorem Makes.sound {file : String × List UInt8} {f : TemplateFunction}
    (h : Makes contextName file f) : Sound contextName file := by
  obtain ⟨cs, hbytes, hcompiled⟩ := h.compiled
  exact ⟨ofStem_isOk_iff.1 ⟨f.name, h.name⟩, cs, f.compiled, hbytes, hcompiled⟩

/-- A function was compiled from some parts. -/
theorem Makes.exists_parts {file : String × List UInt8} {f : TemplateFunction}
    (h : Makes contextName file f) : ∃ ps, Compiled.ofParts contextName ps = .ok f.compiled := by
  obtain ⟨cs, -, hcompiled⟩ := h.compiled
  obtain ⟨ps, -, hparts⟩ := Compiled.ofSource_ok hcompiled
  exact ⟨ps, hparts⟩

/-- A sound file offends only by its name. -/
theorem Sound.duplicate_of_refusesFile {file : String × List UInt8} {earlier : List TemplateFunction}
    {e : Error} (h : Sound contextName file) (ho : RefusesFile contextName earlier file e) :
    ∃ f ∈ earlier, ofStem (stem file.1) = .ok f.name := by
  obtain ⟨hnamed, cs, c, hbytes, hcompiled⟩ := h
  have hdecoded : decodeUtf8 file.2 = .ok cs := decodeUtf8_eq_ok_iff.2 hbytes
  cases ho with
  | unnamed hno => exact absurd hnamed hno
  | duplicate hmem hname => exact ⟨_, hmem, hname⟩
  | undecodable _ _ hfault => cases hdecoded.symm.trans hfault
  | uncompilable _ _ hbytes' hrefused =>
    cases hdecoded.symm.trans (decodeUtf8_eq_ok_iff.2 hbytes')
    cases hcompiled.symm.trans hrefused

/-! ## One file -/

/-- The names that files have taken, as those of the functions that were made. -/
structure Records (taken : List (String × String)) (functions : List TemplateFunction) : Prop where
  found : ∀ name file, taken.lookup name = some file →
    ∃ f ∈ functions, f.name = name ∧ f.file = file
  fresh : ∀ name, taken.lookup name = none → name ∉ functions.map (·.name)

theorem Records.concat {taken : List (String × String)} {functions : List TemplateFunction}
    (h : Records taken functions) (f : TemplateFunction) :
    Records ((f.name, f.file) :: taken) (functions ++ [f]) where
  found := by
    intro name file hfound
    rw [List.lookup_cons] at hfound
    split at hfound
    · rename_i hname
      cases hfound
      exact ⟨f, List.mem_append_right _ List.mem_cons_self, (beq_iff_eq.1 hname).symm, rfl⟩
    · obtain ⟨g, hg, hname⟩ := h.found name file hfound
      exact ⟨g, List.mem_append_left _ hg, hname⟩
  fresh := by
    intro name hnone
    rw [List.lookup_cons] at hnone
    split at hnone
    · cases hnone
    · rename_i hname
      rw [List.map_append, List.mem_append]
      rintro (hmem | hmem)
      · exact h.fresh name hnone hmem
      · rw [List.mem_singleton.1 hmem] at hname
        exact absurd (beq_self_eq_true f.name) (Bool.eq_false_iff.1 hname)

/-- The function of a file, `taken` being the names that earlier files have taken. -/
def functionFor (contextName : String) (taken : List (String × String))
    (file : String × List UInt8) : Except Error TemplateFunction := do
  let name ← nameOf taken file.1
  (functionOf contextName name file.1 file.2).result

theorem result_compileFile (contextName file source : String) :
    (compileFile contextName file source).result =
      Compiled.ofSource (configOf contextName file) source := by
  unfold compileFile Compiled.ofSource configOf
  dsimp only
  cases Compiled.templateOf { contextName, sourceFile := some file } source with
  | error e => rfl
  | ok ps =>
    simp only [bind, Except.bind]
    cases Compiled.ofParts contextName ps <;> rfl

/-- Compiling the text of a file. -/
theorem result_functionOf (contextName name file : String) (bytes : List UInt8) :
    (functionOf contextName name file bytes).result = do
      let source ← sourceOf bytes
      let c ← Compiled.ofSource (configOf contextName file) source
      return ⟨name, file, c⟩ := by
  unfold functionOf
  cases sourceOf bytes with
  | error e => rfl
  | ok source =>
    have hcompiled := result_compileFile contextName file source
    simp only [Report.map, Report.after, hcompiled, bind, Except.bind, Except.map]
    cases Compiled.ofSource (configOf contextName file) source <;> rfl

theorem functionsOf_cons (contextName : String) (taken : List (String × String))
    (file : String × List UInt8) (rest : List (String × List UInt8)) :
    (functionsOf contextName taken (file :: rest)).result = do
      let f ← functionFor contextName taken file
      let fs ← (functionsOf contextName ((f.name, f.file) :: taken) rest).result
      return f :: fs := by
  obtain ⟨file, bytes⟩ := file
  conv_lhs => rw [functionsOf]
  unfold functionFor
  cases nameOf taken file with
  | error e => rfl
  | ok name =>
    dsimp only
    have hresult := result_functionOf contextName name file bytes
    cases hreport : functionOf contextName name file bytes with
    | mk lines result =>
      rw [hreport] at hresult
      cases result with
      | error e =>
        simp only [bind, Except.bind, hreport]
      | ok f =>
        have hmade : f.name = name ∧ f.file = file := by
          obtain ⟨source, -, hresult⟩ := Except.bind_eq_ok.1 hresult.symm
          obtain ⟨c, -, hresult⟩ := Except.bind_eq_ok.1 hresult
          cases hresult
          exact ⟨rfl, rfl⟩
        simp only [Report.map, Report.after, bind, Except.bind, hreport, hmade.1, hmade.2]
        cases (functionsOf contextName ((name, file) :: taken) rest).result <;> rfl

variable (contextName) in
/-- A file becomes a function whose name is new, or offends. -/
theorem within_functionFor {taken : List (String × String)} {functions : List TemplateFunction}
    (hrecords : Records taken functions) (file : String × List UInt8) :
    (functionFor contextName taken file).Within
      (fun f => Makes contextName file f ∧ f.name ∉ functions.map (·.name))
      (RefusesFile contextName functions file) := by
  have hname : (nameOf taken file.1).Within
      (fun name => ofStem (stem file.1) = .ok name ∧ name ∉ functions.map (·.name))
      (RefusesFile contextName functions file) := by
    unfold nameOf
    cases hstem : ofStem (stem file.1) with
    | error e =>
      have hno : ¬ HasWord (stem file.1) := fun hword => by
        obtain ⟨name, hok⟩ := ofStem_isOk_iff.2 hword
        cases hstem.symm.trans hok
      cases hstem.symm.trans (ofStem_of_not_hasWord hno)
      exact .unnamed hno
    | ok name =>
      dsimp only [bind, Except.bind]
      cases hlookup : taken.lookup name with
      | some first =>
        obtain ⟨f, hf, rfl, rfl⟩ := hrecords.found name first hlookup
        exact .duplicate hf hstem
      | none => exact ⟨rfl, hrecords.fresh name hlookup⟩
  apply hname.bind
  rintro name ⟨hstem, hfresh⟩
  rw [result_functionOf]
  unfold sourceOf
  cases hdecoded : decodeUtf8 file.2 with
  | error fault => exact .undecodable hstem hfresh hdecoded
  | ok cs =>
    have hbytes : file.2 = cs.flatMap String.utf8EncodeChar := decodeUtf8_eq_ok_iff.1 hdecoded
    cases hcompiled : Compiled.ofSource (configOf contextName file.1)
        (String.ofList (unifyLineEnds cs)) with
    | error e =>
      simp only [bind, Except.bind, hcompiled]
      exact .uncompilable hstem hfresh hbytes hcompiled
    | ok c =>
      simp only [bind, Except.bind, hcompiled]
      exact ⟨⟨rfl, hstem, cs, hbytes, hcompiled⟩, hfresh⟩

/-! ## All files -/

/-- The first file that offends, the functions of the files before it having been made. -/
def FirstOffends (contextName : String) (files : List (String × List UInt8)) (e : Error) : Prop :=
  ∃ before file after functions, files = before ++ file :: after ∧
    List.Forall₂ (Makes contextName) before functions ∧ (functions.map (·.name)).Nodup ∧
    RefusesFile contextName functions file e

variable (contextName) in
/-- Files become functions one after another, up to the first that offends. -/
theorem within_functionsOf {taken : List (String × String)} {functions : List TemplateFunction}
    (hrecords : Records taken functions) (hnodup : (functions.map (·.name)).Nodup)
    (files : List (String × List UInt8)) :
    (functionsOf contextName taken files).result.Within
      (fun fs => List.Forall₂ (Makes contextName) files fs ∧
        ((functions ++ fs).map (·.name)).Nodup)
      (fun e => ∃ before file after fs, files = before ++ file :: after ∧
        List.Forall₂ (Makes contextName) before fs ∧ ((functions ++ fs).map (·.name)).Nodup ∧
        RefusesFile contextName (functions ++ fs) file e) := by
  -- The functions that are there already grow by the one of the file that is taken.
  induction files generalizing taken functions with
  | nil =>
    refine ⟨.nil, ?_⟩
    rwa [List.append_nil]
  | cons file rest ih =>
    rw [functionsOf_cons]
    have hfile := within_functionFor contextName hrecords file
    cases hf : functionFor contextName taken file with
    | error e =>
      refine ⟨[], file, rest, [], rfl, .nil, ?_, ?_⟩
      · rwa [List.append_nil]
      · rw [List.append_nil]
        exact hfile.of_error hf
    | ok f =>
      obtain ⟨hmakes, hfresh⟩ := hfile.of_ok hf
      have hlonger : ((functions ++ [f]).map (·.name)).Nodup := by
        rw [List.map_append, List.nodup_append]
        refine ⟨hnodup, List.pairwise_singleton _ _, ?_⟩
        rintro a ha b hb rfl
        obtain rfl : a = f.name := List.mem_singleton.1 hb
        exact hfresh ha
      have hshift : ∀ fs, functions ++ [f] ++ fs = functions ++ f :: fs := fun fs => by
        rw [List.append_assoc, List.singleton_append]
      have hrest := ih (hrecords.concat f) hlonger
      cases hfs : (functionsOf contextName ((f.name, f.file) :: taken) rest).result with
      | error e =>
        obtain ⟨before, file', after, fs, rfl, hbefore, hnames, hoffends⟩ := hrest.of_error hfs
        rw [hshift] at hnames hoffends
        simp only [bind, Except.bind, hfs]
        exact ⟨file :: before, file', after, f :: fs, rfl, .cons hmakes hbefore, hnames, hoffends⟩
      | ok fs =>
        obtain ⟨hall, hnames⟩ := hrest.of_ok hfs
        rw [hshift] at hnames
        simp only [bind, Except.bind, hfs]
        exact ⟨.cons hmakes hall, hnames⟩

/-! ## Modules -/

/-- The text of a module is its start and the texts of its functions. -/
theorem text_eq (b : Bundle) :
    b.text = header b.folder ++
      String.join (b.functions.map fun f => TemplateFunction.text f.name f.file f.compiled) := by
  have hfold : ∀ (fs : List TemplateFunction) (out : Builder),
      (fs.foldl (fun out f => out.append (TemplateFunction.text f.name f.file f.compiled))
        out).build =
      out.build ++ String.join (fs.map fun f => TemplateFunction.text f.name f.file f.compiled) := by
    intro fs
    induction fs with
    | nil => simp
    | cons f fs ih =>
      intro out
      rw [List.foldl_cons, ih, out.build_append, List.map_cons, String.join_cons,
        String.append_assoc]
  unfold text
  rw [hfold, Builder.build_append]
  simp [Builder.build]

/-- A module of a folder: it has one function for each template file, made of this file and in the
order of the files' names, under names that are distinct and may be used.  The parameter of a
function may be left out exactly if nothing is required of it. -/
structure CoversFolder (contextName : String) (folder : Folder) (b : Bundle) : Prop where
  all : folder.templates.Perm (folder.files.filter fun file => isTemplate file.1)
  sorted : folder.templates.Pairwise fun a b => a.1 < b.1
  made : List.Forall₂ (Makes contextName) folder.templates b.functions
  distinct : (b.functions.map (·.name)).Nodup
  usable : ∀ f ∈ b.functions, isIdentifier f.name = true ∧ isKeyword f.name = false
  text : b.text = header b.folder ++ String.join (b.functions.map fun f =>
    "\n\ndef " ++ f.name ++ "(" ++ contextName ++
      (if f.compiled.anyRequired then "" else "=None") ++ "):\n    \"\"\"" ++
      TemplateFunction.description f.file f.compiled ++ "\"\"\"\n    return unsafe(" ++
      f.compiled.expression ++ ")\n")

/-- No two files of a list give one function, if those that they give are distinct. -/
theorem pairwise_of_made {files : List (String × List UInt8)} {functions : List TemplateFunction}
    (hmade : List.Forall₂ (Makes contextName) files functions)
    (hnames : (functions.map (·.name)).Nodup) : files.Pairwise fun a b => ¬ SameName a b := by
  have hdistinct : functions.Pairwise fun f g => f.name ≠ g.name := List.pairwise_map.1 hnames
  refine pairwise_of_forall₂ hmade hdistinct ?_
  rintro a f b g hf hg hne ⟨name, ha, hb⟩
  have hfname : f.name = name := Except.ok.inj (hf.name.symm.trans ha)
  have hgname : g.name = name := Except.ok.inj (hg.name.symm.trans hb)
  exact hne (hfname.trans hgname.symm)

theorem result_build (path : String) (folder : Folder) (contextName : String) :
    (build path (.ok folder) contextName).result =
      (functionsOf contextName [] folder.templates).result.map (⟨path, ·⟩) := by
  unfold build
  dsimp only
  cases functionsOf contextName [] folder.templates with
  | mk lines result => cases result <;> rfl

/-- A module covers its folder, or the first file that offends is at fault. -/
theorem within_build (path : String) (folder : Folder) (contextName : String) :
    (build path (.ok folder) contextName).result.Within
      (fun b => b.folder = path ∧ CoversFolder contextName folder b)
      (FirstOffends contextName folder.templates) := by
  have hstart : Records [] [] := ⟨nofun, fun _ _ => List.not_mem_nil⟩
  have hfunctions := within_functionsOf contextName hstart .nil folder.templates
  rw [result_build]
  cases hresult : (functionsOf contextName [] folder.templates).result with
  | error e => exact hfunctions.of_error hresult
  | ok functions =>
    obtain ⟨hmade, hnames⟩ := hfunctions.of_ok hresult
    have hapart := pairwise_of_made hmade hnames
    refine ⟨rfl, folder.templates_perm, ?_, hmade, hnames, ?_, ?_⟩
    · -- Files in order are in strict order if no two of them have one name.
      refine (folder.templates_sorted.and hapart).imp_of_mem ?_
      rintro a b ha - ⟨hle, hne⟩
      refine String.not_le.1 fun hge => hne ?_
      obtain ⟨f, -, hf⟩ := exists_of_forall₂_left hmade ha
      exact ⟨f.name, hf.name, String.le_antisymm hle hge ▸ hf.name⟩
    · intro f hf
      obtain ⟨file, -, hmakes⟩ := exists_of_forall₂_right hmade hf
      exact isIdentifier_ofStem hmakes.name
    · rw [text_eq]
      refine congrArg (header path ++ String.join ·) (List.map_congr_left fun f hf => ?_)
      obtain ⟨file, -, hmakes⟩ := exists_of_forall₂_right hmade hf
      obtain ⟨ps, hparts⟩ := hmakes.exists_parts
      have hcontext : f.compiled.contextName = contextName := (Compiled.ofParts_ok hparts).2.1
      unfold TemplateFunction.text
      rw [hcontext]
      simp only [String.append_assoc]
      rfl

/-- A module can be built exactly if every file is sound and no two would give one function. -/
theorem isOk_build_iff (path : String) (folder : Folder) (contextName : String) :
    (∃ b, (build path (.ok folder) contextName).result = .ok b) ↔
      (∀ file ∈ folder.files, isTemplate file.1 = true → Sound contextName file) ∧
      (folder.files.filter fun file => isTemplate file.1).Pairwise fun a b => ¬ SameName a b := by
  have hsymm : ∀ {a b}, ¬ SameName a b → ¬ SameName b a := fun h hs => h hs.symm
  have hbuilt := within_build path folder contextName
  rw [← folder.templates_perm.pairwise_iff hsymm]
  constructor
  · rintro ⟨b, hb⟩
    obtain ⟨-, hcovers⟩ := hbuilt.of_ok hb
    refine ⟨fun file hfile htemplate => ?_, pairwise_of_made hcovers.made hcovers.distinct⟩
    obtain ⟨f, -, hmakes⟩ :=
      exists_of_forall₂_left hcovers.made (folder.mem_templates.2 ⟨hfile, htemplate⟩)
    exact hmakes.sound
  · rintro ⟨hsound, hapart⟩
    cases hresult : (build path (.ok folder) contextName).result with
    | ok b => exact ⟨b, rfl⟩
    | error e =>
      -- A sound file offends only because an earlier one has its name.
      obtain ⟨before, file, after, functions, hfiles, hmade, -, hoffends⟩ :=
        hbuilt.of_error hresult
      have hmem : file ∈ folder.templates := by
        rw [hfiles]
        exact List.mem_append_right _ List.mem_cons_self
      obtain ⟨hfile, htemplate⟩ := folder.mem_templates.1 hmem
      obtain ⟨f, hf, hname⟩ := (hsound file hfile htemplate).duplicate_of_refusesFile hoffends
      obtain ⟨first, hfirst, hmakes⟩ := exists_of_forall₂_right hmade hf
      rw [hfiles] at hapart
      have hdistinct := (List.pairwise_append.1 hapart).2.2 first hfirst file List.mem_cons_self
      exact absurd ⟨f.name, hmakes.name, hname⟩ hdistinct

/-- If its module cannot be built, a command only tells why. -/
theorem run_of_error {texts : List String} {tree : FileTree} {a : Arguments}
    {found : Except OpenFault Folder} {e : Error} (hread : Arguments.read texts = .ok a)
    (hcontext : a.contextName = .text contextName) (hfound : tree.folderAt a.folder = found)
    (herror : (build (FilePath.normalize a.folder) found contextName).result = .error e) :
    ∃ log, CommandLine.run texts tree =
      (.finished 1 "" (log ++ CommandLine.errorLine e.message), tree) := by
  have hbuild : CommandLine.build a (tree.folderAt a.folder) =
      build (FilePath.normalize a.folder) found contextName := by
    unfold CommandLine.build
    rw [hfound, hcontext]
    rfl
  unfold CommandLine.run
  rw [hread]
  dsimp only
  rw [hbuild, herror]
  dsimp only
  unfold CommandLine.Outcome.ofError
  rw [hcontext]
  exact ⟨_, rfl⟩

/-- Building a module is all or nothing.

It succeeds exactly if every template file that stands directly in the folder has a letter or digit
in its stem, is UTF-8 and compiles, and no two of them would give one function.  Then the module
covers the folder.  Otherwise its error is that of the first file that offends, in the order of the
files' names, and a command line for this folder writes nothing, tells the error and has the exit
code 1. -/
theorem build_all_or_nothing (path : String) (folder : Folder) (contextName : String) :
    ((∃ b, (build path (.ok folder) contextName).result = .ok b) ↔
      (∀ file ∈ folder.files, isTemplate file.1 = true → Sound contextName file) ∧
      (folder.files.filter fun file => isTemplate file.1).Pairwise fun a b => ¬ SameName a b) ∧
    (∀ b, (build path (.ok folder) contextName).result = .ok b →
      b.folder = path ∧ CoversFolder contextName folder b) ∧
    ∀ e, (build path (.ok folder) contextName).result = .error e →
      FirstOffends contextName folder.templates e ∧
      ∀ texts tree a, Arguments.read texts = .ok a →
        a.contextName = .text contextName → tree.folderAt a.folder = .ok folder →
        ∃ log, CommandLine.run texts tree =
          (.finished 1 "" (log ++ CommandLine.errorLine e.message), tree) := by
  have hbuilt := within_build path folder contextName
  refine ⟨isOk_build_iff path folder contextName, fun b hb => hbuilt.of_ok hb, ?_⟩
  intro e herror
  refine ⟨hbuilt.of_error herror, ?_⟩
  intro texts tree a hread hcontext hfound
  apply run_of_error hread hcontext hfound
  -- The error does not depend on the path of the folder.
  rw [result_build] at herror ⊢
  cases hresult : (functionsOf contextName [] folder.templates).result with
  | ok functions =>
    rw [hresult] at herror
    cases herror
  | error e' =>
    rw [hresult] at herror
    cases herror
    rfl

/-- Two files that are given in another order than that of their names, and one that is no text. -/
theorem build_all_or_nothing_pair :
    (∃ b, (build "t" (.ok ⟨[("b.html", [0x42]), ("a.html", [0x41])]⟩) "context").result = .ok b ∧
      b.functions.map (·.name) = ["template_a", "template_b"] ∧
      CoversFolder "context" ⟨[("b.html", [0x42]), ("a.html", [0x41])]⟩ b) ∧
    FirstOffends "context" (Folder.templates ⟨[("a.html", [0xff])]⟩)
      (.undecodable ⟨0, 1, 0xff, .invalidStart⟩) ∧
    ∃ log, CommandLine.run [] { files := [(["a.html"], [0xff])] } =
      (.finished 1 "" log, { files := [(["a.html"], [0xff])] }) := by
  have ha : isTemplate "a.html" = true := isTemplate_iff.2 ⟨['a'], rfl⟩
  have hb : isTemplate "b.html" = true := isTemplate_iff.2 ⟨['b'], rfl⟩
  have hpair : Folder.templates ⟨[("b.html", [0x42]), ("a.html", [0x41])]⟩ =
      [("a.html", [0x41]), ("b.html", [0x42])] := by
    apply Folder.templates_eq
    · simpa [ha, hb] using List.Perm.swap ("b.html", [0x42]) ("a.html", [0x41]) []
    · exact List.pairwise_pair.2 (by decide)
  have hsingle : Folder.templates ⟨[("a.html", [0xff])]⟩ = [("a.html", [0xff])] := by
    simp [Folder.templates, ha]
  have hok : (build "t" (.ok ⟨[("b.html", [0x42]), ("a.html", [0x41])]⟩) "context").result =
      .ok ⟨"t", [⟨"template_a", "a.html", ⟨"''.join(('A', ))", "Any", false, "context"⟩⟩,
        ⟨"template_b", "b.html", ⟨"''.join(('B', ))", "Any", false, "context"⟩⟩]⟩ := by
    rw [result_build, hpair]
    with_unfolding_all rfl
  have herror : (build "." (.ok ⟨[("a.html", [0xff])]⟩) "context").result =
      .error (.undecodable ⟨0, 1, 0xff, .invalidStart⟩) := by
    rw [result_build, hsingle]
    with_unfolding_all rfl
  obtain ⟨-, hcovers⟩ := (build_all_or_nothing _ _ _).2.1 _ hok
  obtain ⟨hoffends, hruns⟩ := (build_all_or_nothing _ _ _).2.2 _ herror
  obtain ⟨log, hrun⟩ := hruns [] { files := [(["a.html"], [0xff])] } {} rfl rfl rfl
  exact ⟨⟨_, hok, rfl, hcovers⟩, hoffends, _, hrun⟩

end Bundle
end HtmlTemplate
