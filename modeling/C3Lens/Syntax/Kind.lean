/-!
# Kinds of tokens and of syntax tree nodes, and the reserved vocabulary

Every token of a source text has a `TokenKind` and every inner node of its syntax tree a
`NodeKind`. Both have a fixed upper-case label, under which they are shown.

The language keeps some names for itself, and spelling rules tell the names of types from those of constants.
-/

namespace C3Lens

/-- The kind of a token. -/
inductive TokenKind where
  -- blanks and comments
  | whitespace | lineComment | blockComment | docComment
  -- names and literals
  | ident | ctIdent | atIdent | hashIdent | intNumber | floatNumber | stringLit | charLit
  -- reserved words
  | moduleKw | importKw | fnKw | macroKw | structKw | unionKw | bitstructKw | enumKw
  | faultKw | faultdefKw | defKw | aliasKw | distinctKw | typedefKw | interfaceKw | constKw
  | inlineKw | externKw | staticKw | tlocalKw | varKw | returnKw | ifKw | elseKw | forKw
  | foreachKw | foreachRKw | whileKw | doKw | switchKw | caseKw | defaultKw | deferKw
  | trueKw | falseKw | nullKw
  -- punctuation
  | leftBrace | rightBrace | leftParen | rightParen | leftBracket | rightBracket
  | leftGeneric | rightGeneric | semicolon | comma | dot | dotDot | ellipsis | colonColon
  | colon | equal | star | ampersand | question | bang | less | greater | operator
  -- text that belongs to no other kind
  | stray
deriving DecidableEq, Inhabited

namespace TokenKind

/-- The label under which a kind is shown. -/
def label : TokenKind → String
  | .whitespace => "WHITESPACE"
  | .lineComment => "LINE_COMMENT"
  | .blockComment => "BLOCK_COMMENT"
  | .docComment => "DOC_COMMENT"
  | .ident => "IDENT"
  | .ctIdent => "CT_IDENT"
  | .atIdent => "AT_IDENT"
  | .hashIdent => "HASH_IDENT"
  | .intNumber => "INT_NUMBER"
  | .floatNumber => "FLOAT_NUMBER"
  | .stringLit => "STRING"
  | .charLit => "CHAR"
  | .moduleKw => "MODULE_KW"
  | .importKw => "IMPORT_KW"
  | .fnKw => "FN_KW"
  | .macroKw => "MACRO_KW"
  | .structKw => "STRUCT_KW"
  | .unionKw => "UNION_KW"
  | .bitstructKw => "BITSTRUCT_KW"
  | .enumKw => "ENUM_KW"
  | .faultKw => "FAULT_KW"
  | .faultdefKw => "FAULTDEF_KW"
  | .defKw => "DEF_KW"
  | .aliasKw => "ALIAS_KW"
  | .distinctKw => "DISTINCT_KW"
  | .typedefKw => "TYPEDEF_KW"
  | .interfaceKw => "INTERFACE_KW"
  | .constKw => "CONST_KW"
  | .inlineKw => "INLINE_KW"
  | .externKw => "EXTERN_KW"
  | .staticKw => "STATIC_KW"
  | .tlocalKw => "TLOCAL_KW"
  | .varKw => "VAR_KW"
  | .returnKw => "RETURN_KW"
  | .ifKw => "IF_KW"
  | .elseKw => "ELSE_KW"
  | .forKw => "FOR_KW"
  | .foreachKw => "FOREACH_KW"
  | .foreachRKw => "FOREACH_R_KW"
  | .whileKw => "WHILE_KW"
  | .doKw => "DO_KW"
  | .switchKw => "SWITCH_KW"
  | .caseKw => "CASE_KW"
  | .defaultKw => "DEFAULT_KW"
  | .deferKw => "DEFER_KW"
  | .trueKw => "TRUE_KW"
  | .falseKw => "FALSE_KW"
  | .nullKw => "NULL_KW"
  | .leftBrace => "L_BRACE"
  | .rightBrace => "R_BRACE"
  | .leftParen => "L_PAREN"
  | .rightParen => "R_PAREN"
  | .leftBracket => "L_BRACK"
  | .rightBracket => "R_BRACK"
  | .leftGeneric => "L_GENERIC"
  | .rightGeneric => "R_GENERIC"
  | .semicolon => "SEMICOLON"
  | .comma => "COMMA"
  | .dot => "DOT"
  | .dotDot => "DOT_DOT"
  | .ellipsis => "ELLIPSIS"
  | .colonColon => "COLON_COLON"
  | .colon => "COLON"
  | .equal => "EQ"
  | .star => "STAR"
  | .ampersand => "AMP"
  | .question => "QUESTION"
  | .bang => "BANG"
  | .less => "LT"
  | .greater => "GT"
  | .operator => "OPERATOR"
  | .stray => "ERROR_TOKEN"

/-- Blanks and comments. -/
def isTrivia : TokenKind → Bool
  | .whitespace | .lineComment | .blockComment | .docComment => true
  | _ => false

/-- Brackets that open a group. -/
def isOpener : TokenKind → Bool
  | .leftParen | .leftBracket | .leftBrace | .leftGeneric => true
  | _ => false

/-- Brackets that close a group. -/
def isCloser : TokenKind → Bool
  | .rightParen | .rightBracket | .rightBrace | .rightGeneric => true
  | _ => false

/-- Names of variables: plain and compile-time identifiers. -/
def isVariableName : TokenKind → Bool
  | .ident | .ctIdent => true
  | _ => false

/-- Identifiers of every sort. -/
def isName : TokenKind → Bool
  | .ident | .ctIdent | .atIdent | .hashIdent => true
  | _ => false

/-- Reserved words that begin a top-level declaration and nothing else, so that reading
can resume at them after an error. -/
def startsDeclaration : TokenKind → Bool
  | .moduleKw | .importKw | .fnKw | .macroKw | .structKw | .unionKw | .bitstructKw
  | .enumKw | .faultdefKw | .defKw | .aliasKw | .distinctKw | .typedefKw
  | .interfaceKw => true
  | _ => false

/-- The reserved words that are tokens of their own, with their kinds. -/
def reservedWords : List (String × TokenKind) := [
  ("module", .moduleKw),
  ("import", .importKw),
  ("fn", .fnKw),
  ("macro", .macroKw),
  ("struct", .structKw),
  ("union", .unionKw),
  ("bitstruct", .bitstructKw),
  ("enum", .enumKw),
  ("fault", .faultKw),
  ("faultdef", .faultdefKw),
  ("def", .defKw),
  ("alias", .aliasKw),
  ("distinct", .distinctKw),
  ("typedef", .typedefKw),
  ("interface", .interfaceKw),
  ("const", .constKw),
  ("inline", .inlineKw),
  ("extern", .externKw),
  ("static", .staticKw),
  ("tlocal", .tlocalKw),
  ("var", .varKw),
  ("return", .returnKw),
  ("if", .ifKw),
  ("else", .elseKw),
  ("for", .forKw),
  ("foreach", .foreachKw),
  ("foreach_r", .foreachRKw),
  ("while", .whileKw),
  ("do", .doKw),
  ("switch", .switchKw),
  ("case", .caseKw),
  ("default", .defaultKw),
  ("defer", .deferKw),
  ("true", .trueKw),
  ("false", .falseKw),
  ("null", .nullKw)]

/-- Punctuation with a kind of its own. -/
def punctuation : List (String × TokenKind) := [
  ("\x7b", .leftBrace),
  ("\x7d", .rightBrace),
  ("(", .leftParen),
  (")", .rightParen),
  ("[", .leftBracket),
  ("]", .rightBracket),
  ("(<", .leftGeneric),
  (">)", .rightGeneric),
  (";", .semicolon),
  (",", .comma),
  (".", .dot),
  ("..", .dotDot),
  ("...", .ellipsis),
  ("::", .colonColon),
  (":", .colon),
  ("=", .equal),
  ("*", .star),
  ("&", .ampersand),
  ("?", .question),
  ("!", .bang),
  ("<", .less),
  (">", .greater)]

/-- The operators that share the kind `operator`. -/
def operators : List String := [
  "==", "!=", "<=", ">=", "&&", "||", "++", "--", "<<", "<<=", ">>", ">>=", "->", "=>",
  "??", "!!", "?:", "+++", "+=", "-=", "*=", "/=", "%=", "&=", "|=", "^=", "+", "-", "/",
  "%", "|", "^", "~", "@", "#", "$"]

/-- The kind of the reserved word `word`, if it is one. -/
def ofReservedWord? (word : String) : Option TokenKind :=
  reservedWords.lookup word

end TokenKind

/-- The kind of an inner node of the syntax tree. -/
inductive NodeKind where
  | sourceFile | moduleDecl | modulePath | genericParams | attribute | importDecl | fnDef
  | macroDef | methodType | name | paramList | param | defaultValue | block | localVarDecl
  | initializer | structDef | structBody | memberDecl | bitRange | interfaceImpl
  | bitstructDef | enumDef | enumParams | enumBody | enumerator | enumValue | faultDef
  | faultBody | faultdefDecl | defDecl | aliasTarget | distinctDecl | interfaceDef
  | interfaceBody | constDecl | globalVarDecl | type | genericArgs | arraySuffix | fnType
  | error
deriving DecidableEq, Inhabited

/-- The label under which a node kind is shown. -/
def NodeKind.label : NodeKind → String
  | .sourceFile => "SOURCE_FILE"
  | .moduleDecl => "MODULE_DECL"
  | .modulePath => "MODULE_PATH"
  | .genericParams => "GENERIC_PARAMS"
  | .attribute => "ATTRIBUTE"
  | .importDecl => "IMPORT_DECL"
  | .fnDef => "FN_DEF"
  | .macroDef => "MACRO_DEF"
  | .methodType => "METHOD_TYPE"
  | .name => "NAME"
  | .paramList => "PARAM_LIST"
  | .param => "PARAM"
  | .defaultValue => "DEFAULT_VALUE"
  | .block => "BLOCK"
  | .localVarDecl => "LOCAL_VAR_DECL"
  | .initializer => "INITIALIZER"
  | .structDef => "STRUCT_DEF"
  | .structBody => "STRUCT_BODY"
  | .memberDecl => "MEMBER_DECL"
  | .bitRange => "BIT_RANGE"
  | .interfaceImpl => "INTERFACE_IMPL"
  | .bitstructDef => "BITSTRUCT_DEF"
  | .enumDef => "ENUM_DEF"
  | .enumParams => "ENUM_PARAMS"
  | .enumBody => "ENUM_BODY"
  | .enumerator => "ENUMERATOR"
  | .enumValue => "ENUM_VALUE"
  | .faultDef => "FAULT_DEF"
  | .faultBody => "FAULT_BODY"
  | .faultdefDecl => "FAULTDEF_DECL"
  | .defDecl => "DEF_DECL"
  | .aliasTarget => "ALIAS_TARGET"
  | .distinctDecl => "DISTINCT_DECL"
  | .interfaceDef => "INTERFACE_DEF"
  | .interfaceBody => "INTERFACE_BODY"
  | .constDecl => "CONST_DECL"
  | .globalVarDecl => "GLOBAL_VAR_DECL"
  | .type => "TYPE"
  | .genericArgs => "GENERIC_ARGS"
  | .arraySuffix => "ARRAY_SUFFIX"
  | .fnType => "FN_TYPE"
  | .error => "ERROR"

/-! ## Reserved vocabulary -/

/-- Names of the built-in types; they belong to no module. -/
def builtinTypes : List String := [
  "void", "bool", "char", "double", "float", "float16", "float128", "bfloat", "int128",
  "ichar", "int", "iptr", "isz", "long", "short", "uint128", "uint", "ulong", "uptr",
  "ushort", "usz", "any", "anyfault", "fault", "typeid"]

/-- Reserved words, compile-time ones included, without the built-in types. -/
def reservedNames : List String := [
  "assert", "asm", "bitstruct", "break", "case", "catch", "const", "continue", "alias",
  "cenum", "faultdef", "interface", "lengthof", "default", "defer", "def", "distinct",
  "typedef", "do", "else", "enum", "extern", "false", "for", "foreach", "foreach_r", "fn",
  "tlocal", "if", "inline", "import", "macro", "module", "nextcase", "null", "return",
  "static", "struct", "switch", "true", "try", "union", "var", "while", "attrdef",
  "$alignof", "$assert", "$case", "$default", "$assignable", "$defined", "$echo", "$embed",
  "$exec", "$else", "$endfor", "$endforeach", "$endif", "$endswitch", "$eval", "$evaltype",
  "$error", "$feature", "$extnameof", "$for", "$foreach", "$if", "$is_const", "$kindof",
  "$include", "$nameof", "$offsetof", "$qnameof", "$sizeof", "$stringify", "$switch",
  "$typefrom", "$typeof", "$vacount", "$vatype", "$vaconst", "$vaarg", "$vaexpr",
  "$vasplat"]

/-- Whether `name` is a built-in type. -/
def isBuiltinType (name : String) : Bool :=
  builtinTypes.contains name

/-- Whether `name` is reserved, as a word or as a built-in type; a search for it finds
nothing. -/
def isReserved (name : String) : Bool :=
  reservedNames.contains name || isBuiltinType name

/-- The characters of a name after its leading underscores. -/
def afterUnderscores (name : String) : List Char :=
  name.toList.dropWhile (· == '_')

/-- The names of types: a capital letter, with a small one somewhere after it. -/
def isTypeName (name : String) : Bool :=
  let cs := afterUnderscores name
  (cs.head?.map Char.isUpper).getD false && cs.any Char.isLower

/-- The names of constants: a capital letter, and no small ones. -/
def isConstantName (name : String) : Bool :=
  let cs := afterUnderscores name
  (cs.head?.map Char.isUpper).getD false && !cs.any Char.isLower

end C3Lens
