import ParallelTests.Proofs.Inverse.Statement

/-!
A statement that is printed on a line of its own, as the only one of a function's body, is read back
from the file.
-/

namespace ParallelTests

open Scan Printer TokenGroup

namespace Parser

variable {s : TokenStream} {gs inner : List TokenGroup} {o c bo bc : Token} {name body : Placed}

lemma funcType_nil (s : TokenStream) (o c : Token) :
    funcType s o [] c = .ok { span := .ofTokens o c, shape := .funcType [] } := by
  rw [funcType_eq]
  rfl

def Declares (p name body : Placed) : Prop :=
  ∃ type signature, p.shape = .funcDecl name.node type signature none (some body.node)

lemma funcRest_nil (f o : Token) (name : Placed) (gs : List TokenGroup)
    (hc : c.lexeme = .op (.closing .round)) (hb : block s bo inner bc = .ok body) :
    ∃ step, funcRest s f none name (.pair .round o [] c :: .pair .curly bo inner bc :: gs) = .ok step ∧
      Declares step.node name body ∧ step.rest = gs := by
  have hend : signatureEnd c (.pair .curly bo inner bc :: gs) = (c, .pair .curly bo inner bc :: gs) := by
    simp [signatureEnd, Token.isKeyword, hc]
  rw [funcRest, funcType_nil]
  simp only [bind, Except.bind]
  split
  · next h =>
    rw [hend] at h
    cases h
    rw [hb]
    exact ⟨_, rfl, ⟨_, _, rfl⟩, rfl⟩
  · next hne h =>
    rw [hend] at h
    cases h
    exact (hne _ _ _ _ rfl).elim

lemma funcDecl_nil {t : Token} {name : String} (f o : Token) (gs : List TokenGroup)
    (ht : t.lexeme = .ident name) (hc : c.lexeme = .op (.closing .round))
    (hb : block s bo inner bc = .ok body) :
    ∃ step, funcDecl s f (.leaf t :: .pair .round o [] c :: .pair .curly bo inner bc :: gs) = .ok step ∧
      Declares step.node (.ident t name) body ∧ step.rest = gs := by
  have hident : identifier t = .ok (.ident t name) := by simp [identifier, ht]
  obtain ⟨step, hstep, hnode, hrest⟩ := funcRest_nil f o (.ident t name) gs hc hb
  refine ⟨step.mono (List.suffix_cons _ _), ?_, hnode, hrest⟩
  rw [funcDecl]
  simp [receiver, TokenGroup.first, hident, afterTypeParams, hstep, bind, Except.bind, pure, Except.pure]

lemma decls_nil {e f t last : Token} {name : String} (o : Token)
    (he : e.isSemicolon = true) (hf : f.lexeme = .keyword .kwFunc) (ht : t.lexeme = .ident name)
    (hc : c.lexeme = .op (.closing .round)) (hlast : last.isSemicolon = true)
    (hb : block s bo inner bc = .ok body) :
    ∃ p, decls s [.leaf e, .leaf f, .leaf t, .pair .round o [] c, .pair .curly bo inner bc, .leaf last] =
      .ok [p] ∧ Declares p (.ident t name) body := by
  obtain ⟨step, hstep, hnode, hrest⟩ := funcDecl_nil f o [.leaf last] ht hc hb
  have hkeyword : f.isSemicolon = false := by simp [Token.isSemicolon, hf]
  refine ⟨step.node, ?_, hnode⟩
  simp [decls, isSemicolon, he, hkeyword, decl, TokenGroup.first, hf, hstep, hrest, hlast, bind,
    Except.bind, pure, Except.pure]

end Parser

def lineFile (package name indent line : String) : String :=
  "package " ++ package ++ "\n\nfunc " ++ name ++ "() \x7b\n" ++ indent ++ line ++ "\n\x7d\n"

def lineLexemes (package name : String) (ls : List Lexeme) : List Lexeme :=
  Lexeme.keyword .kwPackage :: .ident package :: .semicolon false :: .keyword .kwFunc :: .ident name ::
    .op (.opening .round) :: .op (.closing .round) :: .op (.opening .curly) ::
      (ls ++ [.semicolon false, .op (.closing .curly), .semicolon false])

structure Casing (package name : String) where
  packageWord : Token
  packageName : Token
  packageEnd : Token
  funcWord : Token
  funcName : Token
  opener : Token
  closer : Token
  brace : Token
  lineEnd : Token
  braceEnd : Token
  fileEnd : Token
  lexemes : [packageWord, packageName, packageEnd, funcWord, funcName, opener, closer, brace].map
      (·.lexeme) ++ [lineEnd, braceEnd, fileEnd].map (·.lexeme) = lineLexemes package name []

namespace Casing

variable {package name : String} {ts : List Token} {gs : List TokenGroup} {ls : List Lexeme}

def tokens (f : Casing package name) (ts : List Token) : List Token :=
  f.packageWord :: f.packageName :: f.packageEnd :: f.funcWord :: f.funcName :: f.opener :: f.closer ::
    f.brace :: (ts ++ [f.lineEnd, f.braceEnd, f.fileEnd])

def groups (f : Casing package name) (gs : List TokenGroup) : List TokenGroup :=
  [.leaf f.packageWord, .leaf f.packageName, .leaf f.packageEnd, .leaf f.funcWord, .leaf f.funcName,
    .pair .round f.opener [] f.closer, .pair .curly f.brace (gs ++ [.leaf f.lineEnd]) f.braceEnd,
    .leaf f.fileEnd]

lemma exists_of_lexemes (h : ts.map (·.lexeme) = lineLexemes package name ls) :
    ∃ (f : Casing package name) (xs : List Token), ts = f.tokens xs ∧ xs.map (·.lexeme) = ls := by
  simp only [lineLexemes, List.map_eq_cons_iff, List.map_eq_append_iff, List.map_eq_nil_iff] at h
  obtain ⟨k, _, rfl, hk, p, _, rfl, hp, e, _, rfl, he, f, _, rfl, hf, t, _, rfl, ht, o, _, rfl, ho, c, _, rfl,
    hc, b, _, rfl, hb, xs, _, rfl, hxs, l, _, rfl, hl, d, _, rfl, hd, g, _, rfl, hg, rfl⟩ := h
  exact ⟨⟨k, p, e, f, t, o, c, b, l, d, g, by simp [lineLexemes, hk, hp, he, hf, ht, ho, hc, hb, hl, hd, hg]⟩,
    xs, rfl, hxs⟩

lemma ofTokens_tokens (f : Casing package name) (h : Grouped ts gs) :
    ofTokens (f.tokens ts) = .ok (f.groups gs) := by
  have hl := f.lexemes
  simp only [lineLexemes, List.map_cons, List.map_nil, List.cons_append, List.nil_append, List.cons.injEq] at hl
  obtain ⟨hk, hp, he, hf, ht, ho, hc, hb, hl, hd, hg, -⟩ := hl
  simp [ofTokens, tokens, groups, nest, hk, hp, he, hf, ht, ho, hc, hb, h _ _ _, hl, hd, hg]

lemma exists_stream {s : TokenStream} {n : Node} {st : Stretch} (f : Casing package name)
    (h : Parser.ReadingStmt n st) (hc : s.comments = []) (hg : s.groups = f.groups st.toList) :
    ∃ p decl body, Parser.stream s = .ok p ∧ p.node.children = [decl.node] ∧
      Parser.Declares decl (.ident f.funcName name) body ∧ body.node.HoldsOnly n := by
  have hl := f.lexemes
  simp only [lineLexemes, List.map_cons, List.map_nil, List.cons_append, List.nil_append, List.cons.injEq] at hl
  obtain ⟨hk, hp, he, hf, ht, -, hclose, -, hl, -, hend, -⟩ := hl
  have hsemicolon : f.packageEnd.isSemicolon = true ∧ f.lineEnd.isSemicolon = true ∧
      f.fileEnd.isSemicolon = true := by
    simp [Token.isSemicolon, he, hl, hend]
  obtain ⟨he, hl, hend⟩ := hsemicolon
  obtain ⟨body, hblock, hbody⟩ := h.block (s := s) (o := f.brace) (c := f.braceEnd) hl (by simp [hc])
  obtain ⟨decl, hdecls, hdecl⟩ := Parser.decls_nil f.opener he hf ht hclose hend hblock
  refine ⟨Parser.file s package [decl], decl, body, ?_, rfl, hdecl, hbody⟩
  have hident : Parser.identifier f.packageName = .ok (.ident f.packageName package) := by
    simp [Parser.identifier, hp]
  rw [Parser.stream, hg, groups]
  simp [Token.isKeyword, hk, TokenGroup.first, hident, hdecls, bind, Except.bind, pure, Except.pure]
  rfl

end Casing

lemma settle_closed {init : List Lexeme} {l : Lexeme} (hl : l.endsLine = true) (pending : Bool)
    (ss : List Sign) : settle pending ((init ++ [l]).map .lexeme ++ .newline :: ss) =
      init ++ l :: .semicolon false :: settle false ss := by
  induction init generalizing pending with
  | nil => simp [settle, hl]
  | cons u init ih => simpa [settle] using ih u.endsLine

variable {n : Node} {package name indent : String} {w : List Char} {ls : List Lexeme}

lemma SpellsStmt.spelled_line (h : SpellsStmt n w ls) (hp : IsIdentifier package) (hn : IsIdentifier name)
    (hi : ∀ c ∈ indent.toList, isBlank c = true) :
    ∃ ss, Spelled (lineFile package name indent (String.ofList w)).toList ss ∧
      settle false ss = lineLexemes package name ls := by
  obtain ⟨init, l, rfl, hl⟩ := h.closes
  -- from the end of the file to its head, as what is spelled depends on what stands behind it
  have hline : Spelled _ _ := .blanks hi (h.spelled ('\n' :: ['\x7d', '\n']) _ (endsWord_cons rfl)
    (.newline (.mark (l := .op (.closing .curly)) rfl (.newline .nil))))
  have hbrace : Spelled ('(' :: ')' :: ' ' :: '\x7b' :: '\n' :: _) _ :=
    .mark (l := .op (.opening .round)) rfl (.mark (l := .op (.closing .round)) rfl
      (.blank rfl (.mark (l := .op (.opening .curly)) rfl (.newline hline))))
  have hfunc : Spelled ("func".toList ++ ' ' :: _) _ :=
    .word (c := 'f') (x := ['u', 'n', 'c']) rfl rfl (List.all_eq_true.1 rfl) (endsWord_cons rfl)
      (.blank rfl (.identifier hn (endsWord_cons rfl) hbrace))
  have hpackage : Spelled ("package".toList ++ ' ' :: _) _ :=
    .word (c := 'p') (x := ['a', 'c', 'k', 'a', 'g', 'e']) rfl rfl (List.all_eq_true.1 rfl)
      (endsWord_cons rfl) (.blank rfl (.identifier hp (endsWord_cons rfl) (.newline (.newline hfunc))))
  have htext : (lineFile package name indent (String.ofList w)).toList =
      "package".toList ++ ' ' :: (package.toList ++ '\n' :: '\n' :: ("func".toList ++ ' ' ::
        (name.toList ++ '(' :: ')' :: ' ' :: '\x7b' :: '\n' ::
          (indent.toList ++ (w ++ ['\n', '\x7d', '\n']))))) := by
    delta lineFile
    simp only [String.toList_append, String.toList_ofList, List.append_assoc]
    rfl
  have hwords : Lexeme.ofWord "package" = .keyword .kwPackage ∧ Lexeme.ofWord "func" = .keyword .kwFunc := by
    decide
  rw [← htext] at hpackage
  refine ⟨_, hpackage, ?_⟩
  simp only [settle, hwords, settle_closed hl]
  simp [lineLexemes, Lexeme.endsLine]

lemma SpellsStmt.parse_lineFile (h : SpellsStmt n w ls) (path : String) (hp : IsIdentifier package)
    (hn : IsIdentifier name) (hi : ∀ c ∈ indent.toList, isBlank c = true) :
    ∃ file decl func type signature body,
      (Source.ofString path (lineFile package name indent (String.ofList w))).parse = .ok file ∧
      file.children = [decl] ∧ decl.shape = .funcDecl func type signature none (some body) ∧
      func.shape = .ident name ∧ body.HoldsOnly n := by
  obtain ⟨ss, hss, hsettle⟩ := h.spelled_line hp hn hi
  -- the tokens are known by their lexemes only: where they stand in the source does not matter
  have hgroups (ts : List Token) (hts : ts.map (·.lexeme) = settle false ss) :
      ∃ gs, ofTokens ts = .ok gs ∧ ∃ (f : Casing package name) (st : Stretch),
        gs = f.groups st.toList ∧ Parser.ReadingStmt n st := by
    obtain ⟨f, xs, rfl, hxs⟩ := Casing.exists_of_lexemes (hts.trans hsettle)
    obtain ⟨st, hst, hread⟩ := h.groups xs hxs
    exact ⟨_, f.ofTokens_tokens hst, f, st, rfl, hread⟩
  have hchars (text : String) : text.toList = (Source.ofString path text).chars := rfl
  rw [hchars] at hss
  obtain ⟨s, hs, hcomments, f, st, hg, hread⟩ := TokenStream.exists_of_spelled hss hgroups
  obtain ⟨p, decl, body, hstream, hchildren, ⟨type, signature, hdecl⟩, hbody⟩ :=
    f.exists_stream hread hcomments hg
  refine ⟨p.node, decl.node, _, type, signature, body.node, ?_, hchildren, hdecl, rfl, hbody⟩
  rw [Source.parse_eq_ok_iff, Source.parse?, hs]
  simp only [bind, Except.bind, hstream]
  rfl

/-- What is printed for a statement without verbatim text is read back. On a line of its own, as the
only one in a function's body, it is the only statement of that body, with the same outline. So it is
in any block without comments whose tokens, before a semicolon, are those of the line. -/
theorem WritableStmt.parse_line (h : WritableStmt n) :
    ∃ line, n.render = .ok line ∧
      (∀ path package name indent, IsIdentifier package → IsIdentifier name →
        (∀ c ∈ indent.toList, isBlank c = true) →
        ∃ file decl func type signature body,
          (Source.ofString path (lineFile package name indent line)).parse = .ok file ∧
          file.children = [decl] ∧ decl.shape = .funcDecl func type signature none (some body) ∧
          func.shape = .ident name ∧ body.HoldsOnly n) ∧
      ∀ ts : List Token, signs line.toList = some (ts.map fun t => .lexeme t.lexeme) →
        ∃ gs, ofTokens ts = .ok gs ∧ ∀ (s : TokenStream) (o c semi : Token), semi.isSemicolon = true →
          (∀ r ∈ s.comments, r.start < o.stop ∨ c.start ≤ r.start) →
          ∃ body, Parser.block s o (gs ++ [.leaf semi]) c = .ok body ∧ body.node.HoldsOnly n := by
  obtain ⟨w, ls, hspells⟩ := h.exists_spells
  obtain ⟨page, hpage, hw⟩ := hspells.emits .empty
  have hprinted : emit none .empty n = .ok page := hpage
  have htext : page.text.toList = w := by simpa [Wrote, Page.empty] using hw
  have hrender : n.render = .ok (String.ofList w) := by
    rw [Node.render, hprinted, ← htext, String.ofList_toList]
  refine ⟨_, hrender, fun path package name indent hp hn hi => hspells.parse_lineFile path hp hn hi, ?_⟩
  intro ts hts
  have hsigns := (hspells.spelled [] [] (by simp [EndsWord]) .nil).signs
  rw [List.append_nil, List.append_nil] at hsigns
  have hlexemes : ts.map (·.lexeme) = ls := by
    rw [String.toList_ofList, hsigns, Option.some.injEq] at hts
    have hinj : Function.Injective Sign.lexeme := fun _ _ h => Sign.lexeme.inj h
    apply hinj.list_map
    rw [hts, List.map_map]
    rfl
  obtain ⟨st, hst, hread⟩ := hspells.groups ts hlexemes
  exact ⟨_, hst.ofTokens_eq, fun s o c semi hs hc => hread.block hs hc⟩

def mixedStmt : Node :=
  .bare (.assign [.bare (.star (.bare (.ident "p"))), .bare (.selector (.bare (.ident "s")) (.bare (.ident "n")))]
    "+=" [.bare (.call (.bare (.selector (.bare (.ident "t")) (.bare (.ident "Run"))))
      [.bare (.basicLit "\"a\""), .bare (.call (.bare (.ident "f")) [] false), .bare (.ident "xs")] true),
      .bare (.basicLit "'b'")])

theorem parse_line_mixedStmt :
    mixedStmt.render.toOption = some "*p, s.n += t.Run(\"a\", f(), xs...), 'b'" ∧
      ∃ line file decl func type signature body, mixedStmt.render = .ok line ∧
        (Source.ofString "p.go" (lineFile "p" "g" "\t" line)).parse = .ok file ∧
        file.children = [decl] ∧ decl.shape = .funcDecl func type signature none (some body) ∧
        func.shape = .ident "g" ∧ body.HoldsOnly mixedStmt := by
  have hnames : ∀ name ∈ ["f", "g", "n", "p", "s", "t", "xs", "Run"], IsIdentifier name := by
    decide +kernel
  simp only [List.forall_mem_cons] at hnames
  obtain ⟨hf, hg, hn, hp, hs, ht, hxs, hrun, -⟩ := hnames
  have hstring : IsLiteral "\"a\"" (.string "\"a\"") := ⟨.inl rfl, _, _, rfl, by decide +kernel⟩
  have hrune : IsLiteral "'b'" (.rune "'b'") := ⟨.inr rfl, _, _, rfl, by decide +kernel⟩
  have hcall : Writable (.bare (.call (.bare (.ident "f")) [] false)) :=
    .call (.ident hf) (by decide) (by simp) (by simp)
  have hargs : ∀ x ∈ [Node.bare (.basicLit "\"a\""), .bare (.call (.bare (.ident "f")) [] false),
      .bare (.ident "xs")], Writable x :=
    List.forall_mem_cons.2 ⟨.literal hstring, List.forall_mem_cons.2 ⟨hcall, List.forall_mem_singleton.2 (.ident hxs)⟩⟩
  have hlhs : ∀ x ∈ [Node.bare (.star (.bare (.ident "p"))),
      .bare (.selector (.bare (.ident "s")) (.bare (.ident "n")))], Writable x :=
    List.forall_mem_cons.2 ⟨.star (.ident hp), List.forall_mem_singleton.2 (.selector (.ident hs) (by decide) hn)⟩
  have hstmt : WritableStmt mixedStmt :=
    .assign (o := .assignWith .add) rfl (by simp) (by simp) hlhs <| List.forall_mem_cons.2
      ⟨.call (.selector (.ident ht) (by decide) hrun) (by decide) hargs (by simp),
        List.forall_mem_singleton.2 (.literal hrune)⟩
  obtain ⟨line, hline, hfile, -⟩ := hstmt.parse_line
  obtain ⟨file, decl, func, type, signature, body, h⟩ :=
    hfile "p.go" "p" "g" "\t" hp hg (List.all_eq_true.1 rfl)
  exact ⟨by decide +kernel, line, file, decl, func, type, signature, body, hline, h⟩

end ParallelTests
