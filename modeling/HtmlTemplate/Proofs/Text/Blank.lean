import HtmlTemplate.Text.Blank
import Mathlib.Data.List.TakeWhile

/-!
# Blank — texts with blanks around them and between them

Stripping a text takes away the blanks that were put around it (`Text.strip_surrounded`), and the
words of a line are what its blanks are put between (`Text.words_pair`).
-/

namespace HtmlTemplate
namespace Text

variable {front back cs ds : List Char}

theorem stripEnd_append (hback : ∀ c ∈ back, isBlank c = true) (cs : List Char) :
    stripEnd (cs ++ back) = stripEnd cs := by
  have hreverse : ∀ c ∈ back.reverse, isBlank c = true :=
    fun c hc => hback c (List.mem_reverse.1 hc)
  unfold stripEnd
  rw [List.reverse_append, List.dropWhile_append_of_pos hreverse]

/-- Blanks around a text make no difference to what is left of it. -/
theorem strip_surrounded (hfront : ∀ c ∈ front, isBlank c = true)
    (hback : ∀ c ∈ back, isBlank c = true) (cs : List Char) :
    strip (front ++ cs ++ back) = strip cs := by
  unfold strip
  rw [List.append_assoc, List.dropWhile_append_of_pos hfront, List.dropWhile_append]
  split
  · rename_i hnone
    -- There is nothing but blanks.
    rw [List.isEmpty_iff.1 hnone, List.dropWhile_eq_nil_iff.2 hback]
  · exact stripEnd_append hback _

/-- A text that neither starts nor ends with a blank is left as it is. -/
theorem strip_eq_self (hhead : ∀ c ∈ cs.head?, isBlank c = false)
    (hlast : ∀ c ∈ cs.getLast?, isBlank c = false) : strip cs = cs := by
  have hdrop : ∀ {ds : List Char}, (∀ c ∈ ds.head?, isBlank c = false) →
      ds.dropWhile isBlank = ds := by
    intro ds h
    cases ds with
    | nil => rfl
    | cons d ds => rw [List.dropWhile_cons_of_neg (by simp [h d rfl])]
  have hreverse : ∀ c ∈ cs.reverse.head?, isBlank c = false := by
    rwa [List.head?_reverse]
  unfold strip stripEnd
  rw [hdrop hhead, hdrop hreverse, List.reverse_reverse]

/-- A text without blanks is left as it is. -/
theorem strip_of_no_blank (h : ∀ c ∈ cs, isBlank c = false) : strip cs = cs :=
  strip_eq_self (fun c hc => h c (List.mem_of_mem_head? hc))
    fun c hc => h c (List.mem_of_mem_getLast? hc)

/-- Blanks in the middle of a text stay. -/
theorem strip_cons_append {c : Char} (hc : isBlank c = false) (middle : List Char) (hne : cs ≠ [])
    (h : ∀ c ∈ cs, isBlank c = false) : strip (c :: (middle ++ cs)) = c :: (middle ++ cs) := by
  refine strip_eq_self ?_ ?_
  · rintro d ⟨⟩
    exact hc
  · intro d hd
    rw [← List.cons_append, List.getLast?_append, List.getLast?_eq_some_getLast hne,
      Option.some_or] at hd
    obtain rfl := Option.some.inj hd
    exact h _ (List.getLast_mem hne)

/-! ## Words -/

theorem runsFrom_word (h : ∀ c ∈ cs, isBlank c = false) (run ds : List Char) :
    runsFrom (fun c => !isBlank c) run (cs ++ ds) =
      runsFrom (fun c => !isBlank c) (run ++ cs) ds := by
  induction cs generalizing run with
  | nil => rw [List.nil_append, List.append_nil]
  | cons c cs ih =>
    obtain ⟨hc, hcs⟩ := List.forall_mem_cons.1 h
    rw [List.cons_append, runsFrom, if_pos (by simp [hc]), ih hcs, List.append_assoc,
      List.singleton_append]

/-- A text without blanks is a word. -/
theorem words_single (hne : cs ≠ []) (h : ∀ c ∈ cs, isBlank c = false) : words cs = [cs] := by
  have hrun := runsFrom_word h [] []
  rw [List.append_nil, List.nil_append, runsFrom, if_neg (by simpa using hne)] at hrun
  exact hrun

/-- A blank between two texts without any makes them two words. -/
theorem words_pair {blank : Char} (hblank : isBlank blank = true) (hcs : cs ≠ [])
    (h : ∀ c ∈ cs, isBlank c = false) (hds : ds ≠ []) (h' : ∀ c ∈ ds, isBlank c = false) :
    words (cs ++ blank :: ds) = [cs, ds] := by
  have hsecond : runsFrom (fun c => !isBlank c) [] ds = [ds] := words_single hds h'
  have hrun := runsFrom_word h [] (blank :: ds)
  rw [List.nil_append, runsFrom, if_neg (by simp [hblank]), if_neg (by simpa using hcs),
    hsecond] at hrun
  exact hrun

end Text
end HtmlTemplate
