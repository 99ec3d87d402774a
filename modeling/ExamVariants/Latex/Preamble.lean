namespace ExamVariants.Latex

def closeLines (ls : List String) : String := String.join (ls.map (· ++ "\n"))

def packageLines : List String :=
  ["\\usepackage[utf8]\x7binputenc\x7d",
    "\\usepackage[T1]\x7bfontenc\x7d",
    "\\usepackage\x7bamsmath, amssymb\x7d",
    "\\usepackage\x7btabularx\x7d",
    "\\usepackage\x7bmulticol\x7d",
    "\\usepackage\x7bcolor\x7d",
    "\\usepackage[scaled=0.85]\x7bsourcecodepro\x7d",
    "\\usepackage\x7blistings\x7d",
    "\\usepackage\x7benviron\x7d",
    "\\usepackage[normalem]\x7bulem\x7d",
    "\\usepackage\x7betoolbox\x7d",
    "\\usepackage[export]\x7badjustbox\x7d",
    "\\usepackage\x7benumitem\x7d"]

/-- Choices set side by side where they fit; `\item*` marks a correct one when answers are
printed. -/
def choiceLines : List String :=
  ["\\renewcommand\x7b\\questionshook\x7d\x7b%",
    "    \\setlength\x7b\\itemsep\x7d\x7b0.5\\baselineskip\x7d",
    "    \\setlength\x7b\\topsep\x7d\x7b0pt\x7d",
    "    \\setlength\\partopsep\x7b0pt\x7d",
    "    \\setlength\\parsep\x7b5pt\x7d",
    "\x7d",
    "",
    "\\makeatletter",
    "\\newlength\\choiceitemwidth",
    "\\newcounter\x7bchoiceitem\x7d%",
    "\\def\\thechoiceitem\x7b\\Alph\x7bchoiceitem\x7d\x7d%",
    "\\setlength\x7b\\fboxsep\x7d\x7b0pt\x7d",
    "\\def\\makechoicelabel#1\x7b#1\\uline\x7b\\bfseries \\thechoiceitem.\x7d\\else\\thechoiceitem.\\fi\\space\x7d",
    "\\def\\choice@mesureitem#1\x7b\\cr\\stepcounter\x7bchoiceitem\x7d\\makechoicelabel#1\x7d%",
    "\\def\\choicemesureitem\x7b\\@ifstar",
    "    \x7b\\choice@mesureitem\\ifprintanswers \\xappto\\theanswer\x7b\\thechoiceitem\x7d\\ignorespaces\x7d%",
    "    \x7b\\choice@mesureitem\\iffalse\x7d\x7d%",
    "\\def\\choice@blockitem#1\x7b%",
    "    \\ifnum\\value\x7bchoiceitem\x7d>0\\hfill\\fi",
    "    \\egroup\\hskip0pt",
    "    \\hbox to \\choiceitemwidth\\bgroup\\hss\\refstepcounter\x7bchoiceitem\x7d\\makechoicelabel#1\x7d",
    "\\def\\choiceblockitem\x7b\\@ifstar",
    "    \x7b\\choice@blockitem\\ifprintanswers\\ignorespaces\x7d%",
    "    \x7b\\choice@blockitem\\iffalse\x7d\x7d",
    "\\def\\choice@paraitem#1\x7b%",
    "    \\par\\noindent\\refstepcounter\x7bchoiceitem\x7d\\makechoicelabel#1\\hangindent=1.25em\\hangafter=1\\relax\x7d%",
    "\\def\\choiceparaitem\x7b\\@ifstar",
    "    \x7b\\choice@paraitem\\ifprintanswers\\ignorespaces\x7d%",
    "    \x7b\\choice@paraitem\\iffalse\x7d\x7d",
    "\\newdimen\\qanswd",
    "\\newbox\\qimgbox",
    "\\NewEnviron\x7bitems\x7d[1][]\x7b%",
    "    \\def\\theanswer\x7b\x7d",
    "    \\begingroup",
    "    \\let\\item\\choicemesureitem",
    "    \\setcounter\x7bchoiceitem\x7d\x7b0\x7d%",
    "    \\settowidth\x7b\\global\\choiceitemwidth\x7d\x7b\\vbox\x7b\\halign\x7b##\\hfil\\cr\\BODY\\crcr\x7d\x7d\x7d%",
    "    \\endgroup",
    "    \\setbox\\qimgbox\\hbox\x7b#1\x7d%",
    "    \\setlist[trivlist]\x7bnosep\x7d",
    "    \\trivlist\\item\\relax%",
    "    \\qanswd=\\linewidth%",
    "    \\advance\\qanswd-\\wd\\qimgbox%",
    "    \\begin\x7bminipage\x7d[t]\x7b\\qanswd\x7d",
    "        \\trivlist\\item\\relax%",
    "        \\parindent0pt%",
    "        \\setcounter\x7bchoiceitem\x7d\x7b0\x7d%",
    "        \\ifdim\\choiceitemwidth<0.25\\columnwidth",
    "        \\choiceitemwidth=0.25\\columnwidth",
    "        \\let\\item\\choiceblockitem",
    "        \\bgroup\\BODY\\hfill\\egroup",
    "        \\else\\ifdim\\choiceitemwidth<0.5\\columnwidth",
    "        \\choiceitemwidth=0.5\\columnwidth",
    "        \\let\\item\\choiceblockitem",
    "        \\bgroup\\BODY\\hfill\\egroup",
    "        \\else",
    "        \\let\\item\\choiceparaitem",
    "        \\BODY",
    "        \\fi\\fi",
    "        \\endtrivlist",
    "    \\end\x7bminipage\x7d%",
    "    \\adjustbox\x7bvalign=t\x7d\x7b\\unhbox\\qimgbox\x7d",
    "    \\endtrivlist",
    "\x7d",
    "\\makeatother"]

/-- `\TFQuestion` takes the letter of the answer and the statement; without a letter both answers
are printed plain. -/
def trueFalseLines : List String :=
  ["\\newcommand*\x7b\\TrueFalse\x7d[1]\x7b%",
    "    \\ifstrequal\x7b#1\x7d\x7bT\x7d\x7b\\textbf\x7bTRUE\x7d\\hspace*\x7b14pt\x7dFalse\x7d\x7b%",
    "        \\ifstrequal\x7b#1\x7d\x7bF\x7d\x7bTrue\\hspace*\x7b14pt\x7d\\textbf\x7bFALSE\x7d\x7d\x7bTrue\\hspace*\x7b20pt\x7dFalse\x7d\x7d%",
    "\x7d",
    "\\newlength\\TFlengthA",
    "\\newlength\\TFlengthB",
    "\\settowidth\\TFlengthA\x7b\\hspace*\x7b1.16in\x7d\x7d",
    "\\newcommand\\TFQuestion[2]\x7b%",
    "    \\setlength\\TFlengthB\x7b\\linewidth\x7d%",
    "    \\addtolength\\TFlengthB\x7b-\\TFlengthA\x7d%",
    "    \\parbox[t]\x7b\\TFlengthA\x7d\x7b\\TrueFalse\x7b#1\x7d\x7d\\parbox[t]\x7b\\TFlengthB\x7d\x7b#2\x7d\x7d"]

def listingLines : List String :=
  ["\\definecolor\x7bkeywords\x7d\x7bRGB\x7d\x7b127,0,85\x7d",
    "\\definecolor\x7bcomments\x7d\x7bRGB\x7d\x7b63,127,95\x7d",
    "\\definecolor\x7bstrings\x7d\x7bRGB\x7d\x7b42,0,255\x7d",
    "\\definecolor\x7bframe\x7d\x7bRGB\x7d\x7b150,150,150\x7d",
    "\\definecolor\x7bnumbers\x7d\x7bRGB\x7d\x7b100,100,100\x7d",
    "\\lstdefinestyle\x7bcode\x7d\x7b",
    "    language=C,",
    "    tabsize=4,",
    "    captionpos=b,",
    "    showspaces=false,",
    "    showtabs=false,",
    "    breaklines=true,",
    "    showstringspaces=false,",
    "    breakatwhitespace=true,",
    "    escapeinside=\x7b(*@\x7d\x7b@*)\x7d,",
    "    commentstyle=\\color\x7bcomments\x7d,",
    "    keywordstyle=\\bfseries\\color\x7bkeywords\x7d,",
    "    stringstyle=\\color\x7bstrings\x7d,",
    "    basicstyle=\\small\\ttfamily,",
    "    frame=lines,",
    "    rulecolor=\\color\x7bframe\x7d,",
    "    xleftmargin=2em,",
    "    framexleftmargin=1.5em,",
    "    numbers=left,",
    "    numbersep=10pt,",
    "    numberstyle=\\scriptsize\\ttfamily\\color\x7bnumbers\x7d",
    "\x7d",
    "\\lstset\x7bstyle=code\x7d"]

end ExamVariants.Latex
