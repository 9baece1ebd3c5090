import DotTarget.Tree.Dump
import DotTarget.Proofs.Document.Places
import DotTarget.Proofs.Text.Decimal
import DotTarget.Proofs.Text.Quoting
import DotTarget.Proofs.Tree.NamedPaths
import Mathlib.Data.List.Forall2

set_option autoImplicit false

/-! # The rows of a written tree

`Node.dump` writes a row for each path through named children, in the order of the paths
(`Node.exists_rows`), and closes as many brackets as there are paths
(`Node.closers_dumpAt_append`). What is quoted may hold anything, so both need only that the
kinds and roles that are written are harmless (`Node.PlainNames`). -/

namespace DotTarget

/-! ## Rows -/

namespace Node

/-- The row of a node at a depth and in a role, before closing brackets of other nodes: blanks, the
role, the kind, `*` if the kind can be a target, the text if there is nothing below the node, and
the place if asked for. -/
def row (n : Node) (source : Text) (spans : Bool) (depth : Nat) (field : Option String) : Text :=
  List.replicate (2 * depth) ' ' ++ (field.elim [] fun role => role.toList ++ [':', ' ']) ++
    '(' :: n.kind.toList ++ (if n.accepted?.isSome then ['*'] else []) ++
    (if n.namedChildren = [] then ' ' :: Text.quoted (sourceText source n.info) ++ [')'] else []) ++
    (if spans then spanMark n.info else [])

section Rows

variable {source : Text} {spans : Bool} {depth : Nat} {field : Option String} {n : Node}

theorem row_eq :
    n.row source spans depth field =
      head depth n.info field ++
        (if n.namedChildren = [] then ' ' :: Text.quoted (sourceText source n.info) ++ [')']
          else []) ++
        (if spans then spanMark n.info else []) := by
  cases field <;> rfl

/-- A node without named children is written on its row. Other nodes are written below it, and
closed behind the last of them. -/
theorem dumpAt_eq :
    dumpAt source spans depth field n =
      n.row source spans depth field ++
        if n.namedChildren = [] then []
        else dumpChildren source spans (depth + 1) n.children ++ [')'] := by
  obtain ⟨info, children⟩ := n
  have hany : (children.any fun child => child.info.named) = true ↔
      (mk info children).namedChildren ≠ [] := by
    simp [namedChildren, Node.children]
  rw [dumpAt, row_eq]
  by_cases hnil : (mk info children).namedChildren = []
  · rw [if_neg (by rw [hany]; exact not_not.2 hnil), if_pos hnil, if_pos hnil]
    simp [Node.info]
  · rw [if_pos (hany.2 hnil), if_neg hnil, if_neg hnil]
    simp [Node.info, Node.children]

/-- A row of the written tree: that of the node at the end of a path, with brackets behind it that
close nodes above. -/
def IsRow (n : Node) (source : Text) (spans : Bool) (depth : Nat) (field : Option String)
    (path : List Nat) (text : Text) : Prop :=
  ∃ node closers, n.descend? path = some node ∧
    text = node.row source spans (depth + path.length)
        (if path = [] then field else node.info.field) ++ List.replicate closers ')'

theorem IsRow.close {path : List Nat} {text : Text}
    (h : n.IsRow source spans depth field path text) :
    n.IsRow source spans depth field path (text ++ [')']) := by
  obtain ⟨node, closers, hnode, rfl⟩ := h
  exact ⟨node, closers + 1, hnode, by rw [List.replicate_succ', List.append_assoc]⟩

/-- A row of a child is a row of its parent. -/
theorem IsRow.of_child {child : Node} {i : Nat} {path : List Nat} {text : Text}
    (h : child.IsRow source spans (depth + 1) child.info.field path text)
    (hchild : n.namedChildren[i]? = some child) :
    n.IsRow source spans depth field (i :: path) text := by
  obtain ⟨node, closers, hnode, rfl⟩ := h
  refine ⟨node, closers, (descend?_cons_of_some hchild path).trans hnode, ?_⟩
  have hdepth : depth + 1 + path.length = depth + (i :: path).length := by
    rw [List.length_cons]
    omega
  have hfield : (if path = [] then child.info.field else node.info.field) = node.info.field := by
    split
    · rename_i hnil
      rw [hnil, descend?, Option.some.injEq] at hnode
      rw [hnode]
    · rfl
  rw [hdepth, hfield, if_neg (List.cons_ne_nil i path)]

end Rows

end Node

/-- A bracket behind a text stands behind its last row. -/
theorem Text.exists_rows_close {R : List Nat → Text → Prop}
    (hclose : ∀ path text, R path text → R path (text ++ [')'])) {paths : List (List Nat)}
    {rows : List Text} (h : List.Forall₂ R paths rows) (hne : rows ≠ []) :
    ∃ closed, ofLines closed = ofLines rows ++ [')'] ∧ List.Forall₂ R paths closed := by
  induction h with
  | nil => exact absurd rfl hne
  | cons hrow hrows ih =>
    cases hrows with
    | nil => exact ⟨_, rfl, .cons (hclose _ _ hrow) .nil⟩
    | cons hnext hrest =>
      obtain ⟨closed, hclosed, hall⟩ := ih (List.cons_ne_nil _ _)
      refine ⟨_ :: closed, ?_, .cons hrow hall⟩
      cases hall with
      | cons =>
        rw [ofLines, hclosed, ofLines]
        simp

namespace Node

variable {source : Text} {spans : Bool}

/-- What is written for several children has the rows of each of them. -/
theorem exists_rows_children {ns : List Node} {depth : Nat}
    (h : ∀ child ∈ ns, ∃ rows,
      dumpAt source spans depth child.info.field child = Text.ofLines rows ∧
        List.Forall₂ (child.IsRow source spans depth child.info.field) child.paths rows)
    (i : Nat) :
    ∃ rows : List Text, dumpChildren source spans depth ns = rows.flatMap ('\n' :: ·) ∧
      List.Forall₂ (fun path text => ∃ j child tail,
          (ns.filter fun n => n.info.named)[j]? = some child ∧ path = (i + j) :: tail ∧
            child.IsRow source spans depth child.info.field tail text)
        (pathsFrom i ns) rows := by
  induction ns generalizing i with
  | nil => exact ⟨[], rfl, .nil⟩
  | cons child rest ih =>
    rw [List.forall_mem_cons] at h
    rw [dumpChildren, pathsFrom]
    cases hnamed : child.info.named with
    | false => simpa [hnamed] using ih h.2 i
    | true =>
      obtain ⟨rows, hrows, hall⟩ := h.1
      obtain ⟨more, hmore, hall'⟩ := ih h.2 (i + 1)
      refine ⟨rows ++ more, ?_, List.rel_append ?_ ?_⟩
      · obtain ⟨row, rows, rfl⟩ : ∃ row rest, rows = row :: rest := by
          rw [paths_eq] at hall
          cases hall with
          | cons => exact ⟨_, _, rfl⟩
        rw [if_pos rfl, hrows, hmore, Text.ofLines_cons]
        simp
      · rw [List.forall₂_map_left_iff]
        exact hall.imp fun path text hrow => ⟨0, child, path, by simp [hnamed], rfl, hrow⟩
      · refine hall'.imp fun path text => ?_
        rintro ⟨j, other, tail, hother, rfl, hrow⟩
        exact ⟨j + 1, other, tail, by simpa [hnamed] using hother,
          by rw [Nat.add_assoc, Nat.add_comm 1], hrow⟩

/-- **A written tree has a row for each path,** in the order of the paths. -/
theorem exists_rows (source : Text) (spans : Bool) (n : Node) (depth : Nat)
    (field : Option String) :
    ∃ rows, dumpAt source spans depth field n = Text.ofLines rows ∧
      List.Forall₂ (n.IsRow source spans depth field) n.paths rows := by
  induction n using childInduction generalizing depth field with
  | step n ih =>
    have hchildren : ∀ child ∈ n.children, ∃ rows,
        dumpAt source spans (depth + 1) child.info.field child = Text.ofLines rows ∧
          List.Forall₂ (child.IsRow source spans (depth + 1) child.info.field) child.paths rows :=
      fun child hchild => ih child hchild (depth + 1) child.info.field
    obtain ⟨rows, hrows, hall⟩ := exists_rows_children hchildren 0
    have hfirst : n.IsRow source spans depth field [] (n.row source spans depth field) :=
      ⟨n, 0, rfl, by simp⟩
    have hbelow :
        List.Forall₂ (n.IsRow source spans depth field) (pathsFrom 0 n.children) rows := by
      refine hall.imp fun path text => ?_
      rintro ⟨j, child, tail, hchild, rfl, hrow⟩
      rw [Nat.zero_add]
      exact hrow.of_child hchild
    rw [dumpAt_eq, paths_eq]
    split
    · rename_i hleaf
      rw [pathsFrom_eq_nil_iff.2 hleaf]
      exact ⟨[n.row source spans depth field], by simp [Text.ofLines], .cons hfirst .nil⟩
    · -- The bracket of the node stands behind the last row below it.
      obtain ⟨closed, hclosed, hrel⟩ := Text.exists_rows_close (fun _ _ => IsRow.close)
        (.cons hfirst hbelow) (List.cons_ne_nil _ _)
      refine ⟨closed, ?_, hrel⟩
      rw [hclosed, Text.ofLines_cons, hrows, List.append_assoc]

end Node

/-! ## Harmless names -/

/-- A text without newlines, double quotes and closing brackets. Opening brackets do no harm. -/
def Text.IsPlain (t : Text) : Prop :=
  ∀ c ∈ t, c ∉ ['\n', '"', ')']

instance Text.instDecidableIsPlain (t : Text) : Decidable t.IsPlain :=
  decidable_of_iff ((t.all fun c => c ∉ ['\n', '"', ')']) = true) (by simp [IsPlain])

namespace Text.IsPlain

theorem append {s t : Text} (hs : IsPlain s) (ht : IsPlain t) : IsPlain (s ++ t) :=
  List.forall_mem_append.2 ⟨hs, ht⟩

theorem newline_notMem {t : Text} (h : IsPlain t) : '\n' ∉ t :=
  fun hmem => h _ hmem (by decide)

theorem quote_notMem {t : Text} (h : IsPlain t) : '"' ∉ t :=
  fun hmem => h _ hmem (by decide)

theorem closer_notMem {t : Text} (h : IsPlain t) : ')' ∉ t :=
  fun hmem => h _ hmem (by decide)

theorem ofNat (n : Nat) : IsPlain (Text.ofNat n) := by
  intro c hc hmem
  have hdigit := isDigit_of_mem_ofNat hc
  simp only [List.mem_cons, List.not_mem_nil, or_false] at hmem
  rcases hmem with rfl | rfl | rfl <;> exact absurd hdigit (by decide)

end Text.IsPlain

/-- The number of brackets that a text closes outside of quotations. -/
def Text.closers (t : Text) : Nat :=
  (outsideQuotes .outside t).count ')'

theorem Text.closers_append {s : Text} (hs : '"' ∉ s) (t : Text) :
    closers (s ++ t) = s.count ')' + closers t := by
  rw [closers, outsideQuotes_append hs, List.count_append, closers]

theorem Text.IsPlain.closers_append {s : Text} (hs : IsPlain s) (t : Text) :
    closers (s ++ t) = closers t := by
  rw [Text.closers_append hs.quote_notMem, List.count_eq_zero.2 hs.closer_notMem, Nat.zero_add]

theorem Text.closers_quoted_append (s t : Text) : closers (quoted s ++ t) = closers t := by
  rw [closers, outsideQuotes_quoted, closers]

namespace Node

/-- Plain are the kinds of all nodes that can be reached, and the roles of all but the first.
Brackets and other nodes that are not named may have any kind, since they are not written. -/
def PlainNames (n : Node) : Prop :=
  ∀ path node, n.descend? path = some node → Text.IsPlain node.kind.toList ∧
    (path ≠ [] → ∀ role ∈ node.info.field, Text.IsPlain role.toList)

theorem plainNames_iff {n : Node} :
    n.PlainNames ↔ ∀ path ∈ n.paths, ∀ node ∈ n.descend? path, Text.IsPlain node.kind.toList ∧
      (path ≠ [] → ∀ role ∈ node.info.field, Text.IsPlain role.toList) :=
  ⟨fun h path _ node => h path node, fun h path node hnode =>
    h path (mem_paths_iff.2 ⟨node, hnode⟩) node hnode⟩

instance instDecidablePlainNames (n : Node) : Decidable n.PlainNames :=
  decidable_of_iff' _ plainNames_iff

theorem PlainNames.child {n child : Node} (h : n.PlainNames) (hchild : child ∈ n.namedChildren) :
    child.PlainNames ∧ ∀ role ∈ child.info.field, Text.IsPlain role.toList := by
  obtain ⟨i, hi⟩ := List.getElem?_of_mem hchild
  constructor
  · intro path node hnode
    obtain ⟨hkind, hroles⟩ := h (i :: path) node ((descend?_cons_of_some hi path).trans hnode)
    exact ⟨hkind, fun _ => hroles (List.cons_ne_nil _ _)⟩
  · exact (h [i] child (descend?_cons_of_some hi [])).2 (List.cons_ne_nil _ _)

/-- The role that is written for a node is plain, since the first node is written without one. -/
theorem PlainNames.isPlain_role {n node : Node} {path : List Nat} (h : n.PlainNames)
    (hnode : n.descend? path = some node) :
    ∀ role ∈ if path = [] then none else node.info.field, Text.IsPlain role.toList := by
  split
  · simp
  · rename_i hne
    exact (h path node hnode).2 hne

section Plain

variable {source : Text} {spans : Bool} {depth : Nat} {field : Option String} {n : Node}

theorem isPlain_spanMark (info : NodeInfo) : Text.IsPlain (spanMark info) := by
  have hposition (p : Position) : Text.IsPlain p.display.toList := by
    rw [Position.toList_display]
    exact (Text.IsPlain.ofNat p.row).append
      (.append (s := [':']) (by decide) (.ofNat p.column))
  rw [spanMark, Span.toList_display]
  exact ((by decide : Text.IsPlain " [".toList).append ((hposition info.start).append
    (.append (s := ['-']) (by decide) (hposition info.stop)))).append (by decide)

theorem isPlain_head (hkind : Text.IsPlain n.kind.toList)
    (hfield : ∀ role ∈ field, Text.IsPlain role.toList) (depth : Nat) :
    Text.IsPlain (head depth n.info field) := by
  have hblanks : Text.IsPlain (List.replicate (2 * depth) ' ') := by
    intro c hc
    rw [List.eq_of_mem_replicate hc]
    decide
  have hmark : Text.IsPlain (kindMark n.info.kind) := by
    unfold kindMark
    split <;> decide
  have hopened : Text.IsPlain ('(' :: n.kind.toList) := .append (s := ['(']) (by decide) hkind
  cases field with
  | none => exact ((hblanks.append (List.forall_mem_nil _)).append hopened).append hmark
  | some role =>
    have hrole : Text.IsPlain (role.toList ++ [':', ' ']) := (hfield role rfl).append (by decide)
    exact ((hblanks.append hrole).append hopened).append hmark

theorem isPlain_place (info : NodeInfo) (spans : Bool) :
    Text.IsPlain (if spans then spanMark info else []) := by
  cases spans with
  | false => exact List.forall_mem_nil _
  | true => exact isPlain_spanMark info

theorem newline_notMem_row (hkind : Text.IsPlain n.kind.toList)
    (hfield : ∀ role ∈ field, Text.IsPlain role.toList) :
    '\n' ∉ n.row source spans depth field := by
  have hhead := (isPlain_head hkind hfield depth).newline_notMem
  have hplace := (isPlain_place n.info spans).newline_notMem
  have hquoted := Text.newline_notMem_quoted (sourceText source n.info)
  rw [row_eq]
  split <;> simp [hhead, hplace, hquoted]

theorem IsRow.newline_notMem {path : List Nat} {text : Text}
    (h : n.IsRow source spans depth none path text) (hplain : n.PlainNames) : '\n' ∉ text := by
  obtain ⟨node, closers, hnode, rfl⟩ := h
  simp [newline_notMem_row (hplain path node hnode).1 (hplain.isPlain_role hnode)]

/-- Quotes mark the rows of nodes with nothing below them. -/
theorem quote_mem_row_iff (hkind : Text.IsPlain n.kind.toList)
    (hfield : ∀ role ∈ field, Text.IsPlain role.toList) :
    '"' ∈ n.row source spans depth field ↔ n.namedChildren = [] := by
  have hhead := (isPlain_head hkind hfield depth).quote_notMem
  have hplace := (isPlain_place n.info spans).quote_notMem
  rw [row_eq]
  by_cases hleaf : n.namedChildren = []
  · simp [hleaf, Text.quoted]
  · simp [hleaf, hhead, hplace]

/-- Only a node with nothing below it is closed on its row. -/
theorem closers_row_append (hkind : Text.IsPlain n.kind.toList)
    (hfield : ∀ role ∈ field, Text.IsPlain role.toList) (t : Text) :
    Text.closers (n.row source spans depth field ++ t) =
      (if n.namedChildren = [] then 1 else 0) + Text.closers t := by
  have hhead := isPlain_head hkind hfield depth
  have hplace := isPlain_place n.info spans
  rw [row_eq, List.append_assoc, List.append_assoc, hhead.closers_append]
  split
  · have hblank : Text.IsPlain [' '] := by decide
    have hcloser : '"' ∉ [')'] := by decide
    rw [List.cons_append, ← List.singleton_append, List.append_assoc, hblank.closers_append,
      List.append_assoc, Text.closers_quoted_append, Text.closers_append hcloser,
      hplace.closers_append]
    rfl
  · rw [List.nil_append, hplace.closers_append, Nat.zero_add]

end Plain

/-! ## Closing brackets -/

variable {source : Text} {spans : Bool}

theorem closers_dumpChildren_append {ns : List Node} {depth : Nat}
    (h : ∀ child ∈ ns, child.info.named = true → ∀ t,
      Text.closers (dumpAt source spans depth child.info.field child ++ t) =
        child.paths.length + Text.closers t)
    (i : Nat) (t : Text) :
    Text.closers (dumpChildren source spans depth ns ++ t) =
      (pathsFrom i ns).length + Text.closers t := by
  induction ns generalizing i with
  | nil => simp [dumpChildren, pathsFrom]
  | cons child rest ih =>
    rw [List.forall_mem_cons] at h
    rw [dumpChildren, pathsFrom]
    split
    · rename_i hnamed
      have hnewline : '"' ∉ ['\n'] := by decide
      rw [List.cons_append, List.cons_append, ← List.singleton_append,
        Text.closers_append hnewline, List.append_assoc, h.1 hnamed, ih h.2 (i + 1),
        List.length_append, List.length_map, Nat.add_assoc]
      exact Nat.zero_add _
    · exact ih h.2 i

/-- **Each node that is written closes one bracket.** -/
theorem closers_dumpAt_append (source : Text) (spans : Bool) {n : Node} (hplain : n.PlainNames)
    (depth : Nat) {field : Option String} (hfield : ∀ role ∈ field, Text.IsPlain role.toList)
    (t : Text) :
    Text.closers (dumpAt source spans depth field n ++ t) = n.paths.length + Text.closers t := by
  induction n using childInduction generalizing depth field t with
  | step n ih =>
    have hkind := (hplain [] n rfl).1
    rw [dumpAt_eq, paths_eq, List.append_assoc, closers_row_append hkind hfield]
    split
    · rename_i hleaf
      rw [pathsFrom_eq_nil_iff.2 hleaf]
      rfl
    · have hchildren : ∀ child ∈ n.children, child.info.named = true → ∀ t,
          Text.closers (dumpAt source spans (depth + 1) child.info.field child ++ t) =
            child.paths.length + Text.closers t := by
        intro child hmem hnamed t
        obtain ⟨hchild, hrole⟩ := hplain.child (List.mem_filter.2 ⟨hmem, hnamed⟩)
        exact ih child hmem hchild (depth + 1) hrole t
      have hcloser : '"' ∉ [')'] := by decide
      rw [List.append_assoc, closers_dumpChildren_append hchildren 0,
        Text.closers_append hcloser, List.count_singleton_self, List.length_cons]
      omega

/-! ## The written tree as a whole -/

/-- **A tree is written faithfully.** If the kinds and roles that are written hold no newlines,
double quotes or closing brackets, the rows of the written tree are those of the nodes that are
reached from the root through named children, one for each path, in pre-order. The row of a node
shows its depth, its role (the root has none), its kind and whether the kind can be a target; it
shows the text of the node, and has quotes at all, exactly if the node has no named children. Behind
it only brackets are closed. Outside the quoted texts, as many brackets are closed as there are
nodes. -/
theorem dump_faithful {root : Node} (hplain : root.PlainNames) (source : Text) (spans : Bool) :
    ∃ paths : List (List Nat), paths.Pairwise (· < ·) ∧
      (∀ path, path ∈ paths ↔ ∃ node, root.descend? path = some node) ∧
      List.Forall₂ (fun path text => ∃ node closers, root.descend? path = some node ∧
          text = node.row source spans path.length (if path = [] then none else node.info.field) ++
            List.replicate closers ')' ∧
          ('"' ∈ text ↔ node.namedChildren = []))
        paths (Text.lines (root.dump source spans)) ∧
      Text.closers (root.dump source spans) = paths.length := by
  obtain ⟨rows, hrows, hall⟩ := exists_rows source spans root 0 none
  have hne : rows ≠ [] := by
    rintro rfl
    rw [paths_eq] at hall
    cases hall
  have hfree : ∀ text ∈ rows, '\n' ∉ text := by
    intro text hmem
    obtain ⟨i, hi, rfl⟩ := List.getElem_of_mem hmem
    have hrow := hall.get (hall.length_eq ▸ hi) hi
    exact hrow.newline_notMem hplain
  refine ⟨root.paths, pairwise_paths root, fun path => mem_paths_iff, ?_, ?_⟩
  · rw [dump, hrows, Text.lines_ofLines hne hfree]
    refine hall.imp fun path text hrow => ?_
    obtain ⟨node, closers, hnode, rfl⟩ := hrow
    refine ⟨node, closers, hnode, by rw [Nat.zero_add], ?_⟩
    simp [quote_mem_row_iff (hplain path node hnode).1 (hplain.isPlain_role hnode)]
  · have hnone : ∀ role ∈ (none : Option String), Text.IsPlain role.toList := by simp
    have hcount := closers_dumpAt_append source spans hplain 0 hnone []
    rwa [List.append_nil] at hcount

/-- A call whose argument holds a quote, a closing bracket and a newline. -/
def quotedCallSource : Text :=
  "f('\")\n')".toList

def quotedCall : Node :=
  .mk ⟨"module", true, none, ⟨0, 0⟩, ⟨1, 2⟩, 0, 8⟩
    [.mk ⟨"call", true, none, ⟨0, 0⟩, ⟨1, 2⟩, 0, 8⟩
      [.mk ⟨"identifier", true, some "function", ⟨0, 0⟩, ⟨0, 1⟩, 0, 1⟩ [],
       .mk ⟨"argument_list", true, some "arguments", ⟨0, 1⟩, ⟨1, 2⟩, 1, 8⟩
        [.mk ⟨"(", false, none, ⟨0, 1⟩, ⟨0, 2⟩, 1, 2⟩ [],
         .mk ⟨"string", true, none, ⟨0, 2⟩, ⟨1, 1⟩, 2, 7⟩ [],
         .mk ⟨")", false, none, ⟨1, 1⟩, ⟨1, 2⟩, 7, 8⟩ []]]]

theorem dump_faithful_quotedCall :
    quotedCall.PlainNames ∧
      Text.lines (quotedCall.dump quotedCallSource true) =
        ["(module [0:0-1:2]".toList, "  (call* [0:0-1:2]".toList,
         "    function: (identifier* \"f\") [0:0-0:1]".toList,
         "    arguments: (argument_list [0:1-1:2]".toList,
         "      (string* \"'\\\")\\n'\") [0:2-1:1])))".toList] ∧
      Text.closers (quotedCall.dump quotedCallSource true) = 5 := by
  have hplain : quotedCall.PlainNames := by decide
  have hlines : Text.lines (quotedCall.dump quotedCallSource true) =
      ["(module [0:0-1:2]".toList, "  (call* [0:0-1:2]".toList,
       "    function: (identifier* \"f\") [0:0-0:1]".toList,
       "    arguments: (argument_list [0:1-1:2]".toList,
       "      (string* \"'\\\")\\n'\") [0:2-1:1])))".toList] := by
    decide +kernel
  obtain ⟨paths, -, -, hrows, hcount⟩ := dump_faithful hplain quotedCallSource true
  have hlength := hrows.length_eq
  rw [hlines] at hlength
  exact ⟨hplain, hlines, hcount.trans hlength⟩

end Node

end DotTarget
