/-
# The diagram determines the expression

A diagram has a line for each node, in the order in which the nodes are written, and each line is
the label of its node behind the lines that tie it to the nodes above (`IsLineOf`).

Nothing is lost, although the nesting of the nodes is only in the tie lines.  Below a node stand the
blocks of its operands.  The first line of a block is marked by a branch, and no other line of the
block is, since the lines in front of it pass by or are blank (`passes`).  So the blocks can be told
apart, and with them their own lines (`branches_injective`).  The labels then say what the nodes
are: a leaf is a number, a constant or a variable by its first character and its name, and a node
with operands is an operator or a function by its name.  That last point needs that no function has
the name of an operator.
-/
import Fluxion.Proofs.Expr.Proper
import Fluxion.Proofs.Latex.Formula

namespace Fluxion

open Numeral

/-! ## 1. The names of operators -/

/-- The names that the diagram gives to operators. -/
def Op.names : List String := ["Add", "Sub", "Mul", "Div", "Pow"]

/-- The name of an operator that has one. -/
def Op.title (op : Op) : String := op.name.toOption.getD ""

theorem Op.title_mem {op : Op} (h : op.isKnown = true) : op.title ∈ Op.names := by
  cases op <;> first | decide | cases h

theorem Op.title_injective {op op' : Op} (h : op.isKnown = true) (h' : op'.isKnown = true)
    (htitle : op.title = op'.title) : op = op' := by
  cases op <;> cases op' <;>
    simp_all [Op.title, Op.name, Op.isKnown, Except.toOption]

namespace Expr

/-! ## 2. The lines of a diagram -/

/-- What the line of a node says. -/
def label : Expr → String
  | num v => numberText v
  | const c => c
  | var x => x
  | func f _ => f
  | bin op _ _ => op.title
  | hole => ""

/-- The lines below a node, given the diagrams of its operands. -/
def branches : List (List String) → List String
  | [] => []
  | lines :: blocks => branch blocks.isEmpty lines ++ branches blocks

theorem outlineAll_eq_ok {es : List Expr} {below : List String} (h : outlineAll es = .ok below) :
    ∃ blocks, List.Forall₂ (fun e lines => e.outline = .ok lines) es blocks ∧
      below = branches blocks := by
  induction es generalizing below with
  | nil =>
    cases h
    exact ⟨[], .nil, rfl⟩
  | cons e es ih =>
    rw [outlineAll] at h
    cases he : e.outline with
    | error x => rw [he] at h; cases h
    | ok lines =>
      cases hes : outlineAll es with
      | error x => rw [he, hes] at h; cases h
      | ok more =>
        obtain ⟨blocks, hblocks, rfl⟩ := ih hes
        have hempty : es.isEmpty = blocks.isEmpty := by
          cases hblocks <;> rfl
        rw [he, hes] at h
        cases h
        exact ⟨lines :: blocks, .cons he hblocks, by rw [branches, ← hempty]⟩

/-- **A diagram is the label of the root and the blocks of the operands below it.** -/
theorem outline_eq_ok {e : Expr} {lines : List String} (h : e.outline = .ok lines) :
    ∃ blocks, List.Forall₂ (fun e lines => e.outline = .ok lines) e.operands blocks ∧
      lines = e.label :: branches blocks := by
  cases e with
  | num | const | var =>
    cases h
    exact ⟨[], .nil, rfl⟩
  | hole => cases h
  | func f args =>
    rw [outline] at h
    cases hargs : outlineAll args with
    | error x => rw [hargs] at h; cases h
    | ok below =>
      obtain ⟨blocks, hblocks, rfl⟩ := outlineAll_eq_ok hargs
      rw [hargs] at h
      cases h
      exact ⟨blocks, hblocks, rfl⟩
  | bin op l r =>
    rw [outline] at h
    cases hname : op.name with
    | error x => rw [hname] at h; cases h
    | ok name =>
      cases hl : l.outline with
      | error x => rw [hname, hl] at h; cases h
      | ok left =>
        cases hr : r.outline with
        | error x => rw [hname, hl, hr] at h; cases h
        | ok right =>
          rw [hname, hl, hr] at h
          cases h
          refine ⟨[left, right], .cons hl (.cons hr .nil), ?_⟩
          simp [label, Op.title, hname, Except.toOption, branches]

/-- No block is empty. -/
theorem nil_not_mem_blocks {es : List Expr} {blocks : List (List String)}
    (h : List.Forall₂ (fun e lines => e.outline = .ok lines) es blocks) : [] ∉ blocks := by
  induction h with
  | nil => simp
  | cons hhead _ ih =>
    obtain ⟨_, -, rfl⟩ := outline_eq_ok hhead
    simpa using ih

/-- The characters that tie the nodes of a diagram together. -/
def drawing : List Char := [' ', '│', '├', '╰', '─']

/-- The line is the label of the node behind tie lines. -/
def IsLineOf (line : String) (node : Expr) : Prop :=
  ∃ lead : String, (∀ c ∈ lead.toList, c ∈ drawing) ∧ line = lead ++ node.label

theorem IsLineOf.behind {line : String} {node : Expr} (h : IsLineOf line node) {lead : String}
    (hlead : ∀ c ∈ lead.toList, c ∈ drawing) : IsLineOf (lead ++ line) node := by
  obtain ⟨lead', hlead', rfl⟩ := h
  refine ⟨lead ++ lead', ?_, by rw [String.append_assoc]⟩
  intro c hc
  rw [String.toList_append] at hc
  exact (List.mem_append.mp hc).elim (hlead c) (hlead' c)

/-- A block keeps its lines when it is tied to the node above. -/
theorem isLineOf_branch {lines : List String} {nodes : List Expr}
    (h : List.Forall₂ IsLineOf lines nodes) (last : Bool) :
    List.Forall₂ IsLineOf (branch last lines) nodes := by
  cases h with
  | nil => exact .nil
  | cons hline hmore =>
    refine .cons (hline.behind ?_)
      (List.forall₂_map_left_iff.mpr (hmore.imp fun _ _ h => h.behind ?_))
    · cases last <;> simp [drawing]
    · cases last <;> simp [drawing]

/-- **A diagram has one line for each node**, in the order in which the nodes are written. -/
theorem isLineOf_outline {e : Expr} {lines : List String} (h : e.outline = .ok lines) :
    List.Forall₂ IsLineOf lines e.parts := by
  have below : ∀ {es : List Expr} {blocks : List (List String)},
      (∀ e ∈ es, ∀ lines, e.outline = .ok lines → List.Forall₂ IsLineOf lines e.parts) →
      List.Forall₂ (fun e lines => e.outline = .ok lines) es blocks →
      List.Forall₂ IsLineOf (branches blocks) (es.flatMap parts) := by
    intro es blocks hall hblocks
    induction hblocks with
    | nil => exact .nil
    | @cons e lines es blocks he _ ih =>
      rw [branches, List.flatMap_cons]
      exact List.rel_append (isLineOf_branch (hall e List.mem_cons_self lines he) _)
        (ih fun d hd => hall d (List.mem_cons_of_mem e hd))
  induction e using inductOperands generalizing lines with
  | node e ih =>
    obtain ⟨blocks, hblocks, rfl⟩ := outline_eq_ok h
    rw [parts_eq_cons]
    exact .cons ⟨"", by simp, by simp⟩ (below (fun a ha _ => ih a ha) hblocks)

/-! ## 3. Blocks can be told apart -/

/-- The line does not begin a block: what is in front of it passes by or is blank. -/
def passes (line : String) : Bool :=
  line.toList[1]? == some '│' || line.toList[1]? == some ' '

theorem branch_cons (last : Bool) (line : String) (more : List String) :
    branch last (line :: more) = ((if last then " ╰─" else " ├─") ++ line) ::
      more.map ((if last then "    " else " │  ") ++ ·) := rfl

theorem passes_branch_tail {last : Bool} {more : List String} :
    ∀ line ∈ more.map ((if last then "    " else " │  ") ++ ·), passes line = true := by
  intro line hline
  obtain ⟨line, -, rfl⟩ := List.mem_map.mp hline
  cases last <;> simp [passes]

/-- The first of the lines below a node begins a block. -/
theorem passes_branches_head {blocks : List (List String)} (hne : [] ∉ blocks) :
    ∀ line ∈ (branches blocks).head?, passes line = false := by
  intro line hline
  match blocks, hne with
  | [], _ => cases hline
  | [] :: _, hne => exact absurd List.mem_cons_self hne
  | (first :: more) :: blocks, _ =>
    rw [branches, branch_cons, List.cons_append, List.head?_cons] at hline
    obtain rfl := Option.some.inj hline
    cases blocks.isEmpty <;> simp [passes]

/-- **The lines below a node determine the blocks of its operands.** -/
theorem branches_injective {bs cs : List (List String)} (hbs : [] ∉ bs) (hcs : [] ∉ cs)
    (h : branches bs = branches cs) : bs = cs := by
  induction bs generalizing cs with
  | nil =>
    match cs, hcs with
    | [], _ => rfl
    | [] :: _, hcs => exact absurd List.mem_cons_self hcs
    | (first :: more) :: cs, _ => cases h
  | cons b bs ih =>
    match b, cs, hbs, hcs with
    | [], _, hbs, _ => exact absurd List.mem_cons_self hbs
    | first :: more, [], _, _ => cases h
    | _, [] :: _, _, hcs => exact absurd List.mem_cons_self hcs
    | first :: more, (first' :: more') :: cs, hbs, hcs =>
      rw [branches, branches, branch_cons, branch_cons, List.cons_append, List.cons_append] at h
      obtain ⟨hfirst, hrest⟩ := List.cons.inj h
      have hbs' : [] ∉ bs := fun hmem => hbs (List.mem_cons_of_mem _ hmem)
      have hcs' : [] ∉ cs := fun hmem => hcs (List.mem_cons_of_mem _ hmem)
      obtain ⟨hmore, hblocks⟩ := Latex.run_injective (p := passes) passes_branch_tail
        passes_branch_tail (passes_branches_head hbs') (passes_branches_head hcs') hrest
      obtain rfl : bs = cs := ih hbs' hcs' hblocks
      have hpad : Function.Injective
          ((if bs.isEmpty then "    " else " │  ") ++ · : String → String) :=
        fun _ _ hpad => (String.append_right_inj _).mp hpad
      rw [(String.append_right_inj _).mp hfirst, List.map_injective_iff.mpr hpad hmore]

end Expr

/-! ## 4. Expressions with clear labels -/

/-- The diagram shows what the nodes are: the operators are known, the numbers are finite, the names
are words, the names of functions may have primes but are not those of operators, and functions have
arguments. -/
inductive Drawable : Expr → Prop where
  | num {v : Float} : v.isFinite = true → Drawable (.num v)
  | const {c : String} : c ∈ Scan.constants → Drawable (.const c)
  | var {cs : List Char} : IsWord cs → String.ofList cs ∉ Scan.constants →
      Drawable (.var (String.ofList cs))
  | neg {a : Expr} : Drawable a → Drawable a.neg
  | call {cs : List Char} (primes : Nat) {args : List Expr} : IsWord cs →
      String.ofList (cs ++ List.replicate primes '\'') ∉ Op.names → args ≠ [] →
      (∀ a ∈ args, Drawable a) →
      Drawable (.func (String.ofList (cs ++ List.replicate primes '\'')) args)
  | bin {op : Op} {l r : Expr} : op.isKnown = true → Drawable l → Drawable r →
      Drawable (.bin op l r)

namespace Drawable

variable {d e : Expr}

theorem proper (h : Drawable e) : e.Proper := by
  induction h with
  | num _ => exact Expr.proper_num _
  | const _ => exact Expr.proper_const _
  | var _ _ => exact Expr.proper_var _
  | @neg a _ ih => exact Expr.proper_func_iff.mpr fun b hb => by rwa [List.mem_singleton.mp hb]
  | call primes _ _ _ _ ih => exact Expr.proper_func_iff.mpr ih
  | bin hop _ _ ihl ihr => exact Expr.proper_bin_iff.mpr ⟨hop, ihl, ihr⟩

theorem operands (h : Drawable e) : ∀ a ∈ e.operands, Drawable a := by
  cases h with
  | num | const | var => simp [Expr.operands]
  | neg ha => simpa [Expr.neg, Expr.operands] using ha
  | call primes _ _ _ hargs => exact hargs
  | bin _ hl hr => simp [Expr.operands, hl, hr]

theorem parts (h : Drawable e) : ∀ p ∈ e.parts, Drawable p := by
  induction e using Expr.inductOperands with
  | node e ih =>
    rw [Expr.parts_eq_cons]
    intro p hp
    rcases List.mem_cons.mp hp with rfl | hp
    · exact h
    · obtain ⟨a, ha, hin⟩ := List.mem_flatMap.mp hp
      exact ih a ha (h.operands a ha) p hin

/-- A node without operands is a finite number, a constant or a variable. -/
theorem leaf_cases (h : Drawable e) (hnil : e.operands = []) :
    (∃ v, e = .num v ∧ v.isFinite = true) ∨ (∃ c, e = .const c ∧ c ∈ Scan.constants) ∨
      ∃ x, e = .var x ∧ x ∉ Scan.constants := by
  cases h with
  | num hfinite => exact .inl ⟨_, rfl, hfinite⟩
  | const hc => exact .inr (.inl ⟨_, rfl, hc⟩)
  | var _ hvar => exact .inr (.inr ⟨_, rfl, hvar⟩)
  | neg => cases hnil
  | call _ _ _ hargs _ => exact absurd hnil hargs
  | bin => cases hnil

/-- A node with operands is a function, which has not the name of an operator, or an operator. -/
theorem node_cases (h : Drawable e) (hne : e.operands ≠ []) :
    (∃ f args, e = .func f args ∧ f ∉ Op.names) ∨
      ∃ op l r, e = .bin op l r ∧ op.isKnown = true := by
  cases h with
  | num | const | var => exact absurd rfl hne
  | neg => exact .inl ⟨_, _, rfl, by decide⟩
  | call _ _ hname _ _ => exact .inl ⟨_, _, rfl, hname⟩
  | bin hop _ _ => exact .inr ⟨_, _, _, rfl, hop⟩

/-! ## 5. Labels -/

/-- A constant or a variable begins with a letter. -/
theorem label_of_name (h : Drawable e) {name : String} (he : e = .const name ∨ e = .var name) :
    ∃ c rest, e.label = String.ofList (c :: rest) ∧ c.isAlpha = true := by
  cases h with
  | @const c hc =>
    simp only [Scan.constants, List.mem_cons, List.not_mem_nil, or_false] at hc
    rcases hc with rfl | rfl
    · exact ⟨'e', [], rfl, rfl⟩
    · exact ⟨'p', ['i'], rfl, rfl⟩
  | @var cs hword _ =>
    obtain ⟨c, rest, rfl⟩ := List.exists_cons_of_ne_nil hword.1
    exact ⟨c, rest, rfl, hword.2 c List.mem_cons_self⟩
  | num | neg | call | bin => simp [Expr.neg] at he

/-- A number does not. -/
theorem numberText_ne_label {v : Float} (hv : v.isFinite = true) (h : Drawable e) {name : String}
    (he : e = .const name ∨ e = .var name) : numberText v ≠ e.label := by
  obtain ⟨c, rest, hlabel, hletter⟩ := h.label_of_name he
  obtain ⟨c', rest', htext, hhead, -⟩ := numberText_chars hv
  rw [hlabel, htext]
  intro hequal
  obtain ⟨rfl, -⟩ := List.cons.inj (String.ofList_injective hequal)
  rcases hhead with hdigit | rfl
  · rw [(Scan.not_blank_not_digit_of_isAlpha hletter).2] at hdigit
    cases hdigit
  · cases hletter

/-- No label has a line feed in it. -/
theorem newline_not_mem_label (h : Drawable e) : '\n' ∉ e.label.toList := by
  have ofWord : ∀ {cs : List Char}, IsWord cs → '\n' ∉ cs :=
    fun hword hmem => absurd (hword.2 _ hmem) (by decide)
  cases h with
  | num hfinite =>
    obtain ⟨c, rest, htext, -, hchars⟩ := numberText_chars hfinite
    rw [Expr.label, htext, String.toList_ofList]
    exact fun hmem => absurd (hchars _ hmem) (by decide)
  | @const c hc => exact ofWord (Scan.isWord_of_mem_constants hc)
  | var hword _ =>
    rw [Expr.label, String.toList_ofList]
    exact ofWord hword
  | neg => simp [Expr.neg, Expr.label, negation]
  | call primes hword _ _ _ =>
    rw [Expr.label, String.toList_ofList, List.mem_append, not_or]
    exact ⟨ofWord hword, fun hmem => absurd (List.eq_of_mem_replicate hmem) (by decide)⟩
  | @bin op l r hop _ _ =>
    have hnames : ∀ name ∈ Op.names, '\n' ∉ name.toList := by simp [Op.names]
    exact hnames _ (Op.title_mem hop)

/-! ## 6. One diagram, one expression -/

theorem sameAll_of_forall₂ {as bs : List Expr}
    (h : List.Forall₂ (fun a b => a.same b = true) as bs) : Expr.sameAll as bs = true := by
  induction h with
  | nil => rfl
  | cons hhead _ ih => simp [Expr.sameAll, hhead, ih]

/-- Leaves with one label are the same. -/
theorem same_of_leaves (hd : Drawable d) (he : Drawable e) (hlabel : d.label = e.label)
    (hdnil : d.operands = []) (henil : e.operands = []) : d.same e = true := by
  rcases hd.leaf_cases hdnil with ⟨v, rfl, hv⟩ | ⟨c, rfl, hc⟩ | ⟨x, rfl, hx⟩ <;>
    rcases he.leaf_cases henil with ⟨v', rfl, hv'⟩ | ⟨c', rfl, hc'⟩ | ⟨x', rfl, hx'⟩
  · exact beq_of_numberText_eq hv hv' hlabel
  · exact absurd hlabel (numberText_ne_label hv he (.inl rfl))
  · exact absurd hlabel (numberText_ne_label hv he (.inr rfl))
  · exact absurd hlabel.symm (numberText_ne_label hv' hd (.inl rfl))
  · obtain rfl : c = c' := hlabel
    simp [Expr.same]
  · obtain rfl : c = x' := hlabel
    exact absurd hc hx'
  · exact absurd hlabel.symm (numberText_ne_label hv' hd (.inr rfl))
  · obtain rfl : x = c' := hlabel
    exact absurd hc' hx
  · obtain rfl : x = x' := hlabel
    simp [Expr.same]

/-- Nodes with one label and the same operands are the same. -/
theorem same_of_nodes (hd : Drawable d) (he : Drawable e) (hlabel : d.label = e.label)
    (hdne : d.operands ≠ []) (hene : e.operands ≠ [])
    (hoperands : List.Forall₂ (fun a b => a.same b = true) d.operands e.operands) :
    d.same e = true := by
  rcases hd.node_cases hdne with ⟨f, args, rfl, hf⟩ | ⟨op, l, r, rfl, hop⟩ <;>
    rcases he.node_cases hene with ⟨f', args', rfl, hf'⟩ | ⟨op', l', r', rfl, hop'⟩
  · obtain rfl : f = f' := hlabel
    have hall : Expr.sameAll args args' = true := sameAll_of_forall₂ hoperands
    simpa [Expr.same] using hall
  · obtain rfl : f = op'.title := hlabel
    exact absurd (Op.title_mem hop') hf
  · obtain rfl : op.title = f' := hlabel
    exact absurd (Op.title_mem hop) hf'
  · obtain rfl : op = op' := Op.title_injective hop hop' hlabel
    simpa [Expr.same, Expr.operands] using hoperands

/-- **Expressions with one diagram are the same.** -/
theorem same_of_outline_eq (hd : Drawable d) (he : Drawable e) {lines : List String}
    (hdlines : d.outline = .ok lines) (helines : e.outline = .ok lines) : d.same e = true := by
  have pairwise : ∀ {as bs : List Expr} {blocks : List (List String)},
      (∀ a ∈ as, ∀ b ∈ bs, ∀ lines, a.outline = .ok lines → b.outline = .ok lines →
        a.same b = true) →
      List.Forall₂ (fun a lines => a.outline = .ok lines) as blocks →
      List.Forall₂ (fun b lines => b.outline = .ok lines) bs blocks →
      List.Forall₂ (fun a b => a.same b = true) as bs := by
    intro as bs blocks hall has hbs
    induction has generalizing bs with
    | nil =>
      cases hbs
      exact .nil
    | cons ha _ ih =>
      cases hbs with
      | cons hb hbs =>
        exact .cons (hall _ List.mem_cons_self _ List.mem_cons_self _ ha hb)
          (ih (fun a ha b hb => hall a (List.mem_cons_of_mem _ ha) b (List.mem_cons_of_mem _ hb))
            hbs)
  induction d using Expr.inductOperands generalizing e lines with
  | node d ih =>
    obtain ⟨bs, hbs, rfl⟩ := Expr.outline_eq_ok hdlines
    obtain ⟨cs, hcs, hlines⟩ := Expr.outline_eq_ok helines
    obtain ⟨hlabel, hbelow⟩ := List.cons.inj hlines
    obtain rfl : bs = cs := Expr.branches_injective (Expr.nil_not_mem_blocks hbs)
      (Expr.nil_not_mem_blocks hcs) hbelow
    have hoperands := pairwise
      (fun a ha b hb lines => ih a ha (hd.operands a ha) (he.operands b hb)) hbs hcs
    have hlength : d.operands.length = e.operands.length := hoperands.length_eq
    by_cases hnil : d.operands = []
    · rw [hnil] at hlength
      exact same_of_leaves hd he hlabel hnil (List.eq_nil_of_length_eq_zero hlength.symm)
    · refine same_of_nodes hd he hlabel hnil (fun hnil' => hnil ?_) hoperands
      rw [hnil'] at hlength
      exact List.eq_nil_of_length_eq_zero hlength

end Drawable

/-! ## 7. Texts of lines -/

/-- The text of the lines, each with a line feed at its end. -/
def ofLines (lines : List String) : String := String.join (lines.map (· ++ "\n"))

theorem toList_ofLines (lines : List String) :
    (ofLines lines).toList = lines.flatMap fun line => line.toList ++ ['\n'] := by
  simp [ofLines, String.toList_join, List.flatMap_map]

/-- A text determines its lines, if no line has a line feed in it. -/
theorem ofLines_injective {as bs : List String} (has : ∀ line ∈ as, '\n' ∉ line.toList)
    (hbs : ∀ line ∈ bs, '\n' ∉ line.toList) (h : ofLines as = ofLines bs) : as = bs := by
  rw [← String.toList_inj, toList_ofLines, toList_ofLines] at h
  induction as generalizing bs with
  | nil =>
    cases bs with
    | nil => rfl
    | cons b bs => simp at h
  | cons a as ih =>
    cases bs with
    | nil => simp at h
    | cons b bs =>
      rw [List.flatMap_cons, List.flatMap_cons, List.append_assoc, List.append_assoc] at h
      have notFeed : ∀ {line : String}, '\n' ∉ line.toList →
          ∀ c ∈ line.toList, (c != '\n') = true := by
        rintro line hline c hc
        rw [bne_iff_ne]
        rintro rfl
        exact hline hc
      obtain ⟨hline, hrest⟩ := Latex.run_injective (p := (· != '\n'))
        (notFeed (has a List.mem_cons_self)) (notFeed (hbs b List.mem_cons_self)) (by simp)
        (by simp) h
      rw [String.toList_injective hline, ih (fun line hl => has line (List.mem_cons_of_mem _ hl))
        (fun line hl => hbs line (List.mem_cons_of_mem _ hl)) (List.cons.inj hrest).2]

/-- A diagram is the text of its lines. -/
theorem diagram_eq_ofLines {e : Expr} {lines : List String} (h : e.outline = .ok lines) :
    e.diagram = .ok (ofLines lines) := by
  have intercalate_eq : ∀ (first : String) (more : List String),
      "\n".intercalate (first :: more) ++ "\n" = ofLines (first :: more) := by
    intro first more
    induction more generalizing first with
    | nil => simp [ofLines, String.join]
    | cons second more ih =>
      rw [String.intercalate_cons_cons, String.append_assoc, String.append_assoc, ih]
      simp [← String.toList_inj, toList_ofLines]
  obtain ⟨blocks, -, rfl⟩ := Expr.outline_eq_ok h
  rw [Expr.diagram, h, ← intercalate_eq]
  rfl

/-- The lines of labels without line feeds have none. -/
theorem newline_not_mem_lines {lines : List String} {nodes : List Expr}
    (h : List.Forall₂ Expr.IsLineOf lines nodes) (hnodes : ∀ e ∈ nodes, Drawable e) :
    ∀ line ∈ lines, '\n' ∉ line.toList := by
  induction h with
  | nil => simp
  | @cons line e lines nodes hline _ ih =>
    intro line' hmem
    rcases List.mem_cons.mp hmem with rfl | hmem
    · obtain ⟨lead, hlead, rfl⟩ := hline
      rw [String.toList_append, List.mem_append, not_or]
      exact ⟨fun hfeed => absurd (hlead _ hfeed) (by simp [Expr.drawing]),
        (hnodes e List.mem_cons_self).newline_not_mem_label⟩
    · exact ih (fun d hd => hnodes d (List.mem_cons_of_mem e hd)) line' hmem

/-- **The diagram of an expression**: a line for each node. -/
theorem Drawable.exists_lines {e : Expr} (he : Drawable e) :
    ∃ lines, e.outline = .ok lines ∧ e.diagram = .ok (ofLines lines) ∧
      (∀ line ∈ lines, '\n' ∉ line.toList) ∧ List.Forall₂ Expr.IsLineOf lines e.parts := by
  obtain ⟨lines, hlines⟩ := Expr.exists_outline he.proper
  have hforall := Expr.isLineOf_outline hlines
  exact ⟨lines, hlines, diagram_eq_ofLines hlines, newline_not_mem_lines hforall he.parts, hforall⟩

/-- **The diagram determines the expression.**  The diagram of an expression has one line for each
node, in the order in which the nodes are written: the label of the node behind tie lines.  And two
expressions with one diagram are the same, where the two zeros count as equal. -/
theorem diagram_determines {d e : Expr} (hd : Drawable d) (he : Drawable e) :
    (∃ lines, d.diagram = .ok (ofLines lines) ∧ (∀ line ∈ lines, '\n' ∉ line.toList) ∧
      List.Forall₂ Expr.IsLineOf lines d.parts) ∧
    (d.diagram = e.diagram → d.same e = true) := by
  obtain ⟨lines, hlines, hdiagram, hfeed, hforall⟩ := hd.exists_lines
  obtain ⟨lines', hlines', hdiagram', hfeed', -⟩ := he.exists_lines
  refine ⟨⟨lines, hdiagram, hfeed, hforall⟩, fun hsame => ?_⟩
  rw [hdiagram, hdiagram'] at hsame
  obtain rfl := ofLines_injective hfeed hfeed' (Except.ok.inj hsame)
  exact hd.same_of_outline_eq he hlines hlines'

/-- A call with two arguments under a negation; the second argument is the given zero. -/
def negatedCall (zero : Float) : Expr :=
  .neg (.func "f'" [.bin .div (.var "x") (.num (-2.5)), .num zero])

/-- The sign of zero is not shown, and the two calls are the same. -/
theorem diagram_determines_negatedCall :
    Drawable (negatedCall 0.0) ∧ Drawable (negatedCall (-0.0)) ∧
      (negatedCall 0.0).diagram = (negatedCall (-0.0)).diagram ∧
      (negatedCall 0.0).diagram =
        .ok "-\n ╰─f'\n     ├─Div\n     │   ├─x\n     │   ╰─-2.5\n     ╰─0\n" ∧
      (negatedCall 0.0).same (negatedCall (-0.0)) = true := by
  have hx : Drawable (.var "x") := .var ⟨by decide, List.all_eq_true.mp (by decide)⟩ (by decide)
  have hnumber : Drawable (.num (-2.5)) := .num (by decide +kernel)
  have hword : IsWord ['f'] := ⟨by decide, List.all_eq_true.mp (by decide)⟩
  have hcall (zero : Float) (hzero : zero.isFinite = true) : Drawable (negatedCall zero) := by
    refine .neg (.call 1 hword (by decide) (by simp) ?_)
    intro a ha
    simp only [List.mem_cons, List.not_mem_nil, or_false] at ha
    rcases ha with rfl | rfl
    · exact .bin rfl hx hnumber
    · exact .num hzero
  have hd : Drawable (negatedCall 0.0) := hcall 0.0 (by decide +kernel)
  have he : Drawable (negatedCall (-0.0)) := hcall (-0.0) (by decide +kernel)
  have hdiagram : (negatedCall 0.0).diagram =
      .ok "-\n ╰─f'\n     ├─Div\n     │   ├─x\n     │   ╰─-2.5\n     ╰─0\n" := by
    decide +kernel
  have hsame : (negatedCall 0.0).diagram = (negatedCall (-0.0)).diagram := by decide +kernel
  exact ⟨hd, he, hsame, hdiagram, (diagram_determines hd he).2 hsame⟩

end Fluxion
