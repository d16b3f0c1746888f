/-
The files that every converted project begins with.

They are written once and are the user's from then on.  Two of them carry the name of the
project: the package file and the notes.
-/
import PhpMigration.Document.JsonText

namespace PhpMigration.Boilerplate

/-- What a package is, apart from its name. -/
def packageMembers : Table Value := [
  ("version", .text "1.0.0"),
  ("description", .text "PHP to Node.js converted application"),
  ("main", .text "index.ts"),
  ("scripts", .object [
    ("start", .text "node dist/index.js"),
    ("dev", .text "ts-node index.ts"),
    ("build", .text "tsc"),
    ("test", .text "jest")]),
  ("dependencies", .object [
    ("express", .text "^4.18.2"),
    ("cors", .text "^2.8.5"),
    ("dotenv", .text "^16.3.1"),
    ("mongoose", .text "^8.0.0"),
    ("bcryptjs", .text "^2.4.3"),
    ("jsonwebtoken", .text "^9.0.2"),
    ("express-validator", .text "^7.0.1")]),
  ("devDependencies", .object [
    ("@types/express", .text "^4.17.21"),
    ("@types/cors", .text "^2.8.17"),
    ("@types/node", .text "^20.10.0"),
    ("@types/bcryptjs", .text "^2.4.6"),
    ("@types/jsonwebtoken", .text "^9.0.5"),
    ("typescript", .text "^5.3.0"),
    ("ts-node", .text "^10.9.1"),
    ("nodemon", .text "^3.0.2")])]

/-- The package file of a project. -/
def packageFile (projectName : String) : String :=
  Json.write (.object (("name", .text projectName) :: packageMembers)) ++ "\n"

/-- The settings of the compiler. -/
def compilerSettings : Value := .object [
  ("compilerOptions", .object [
    ("target", .text "ES2020"),
    ("module", .text "commonjs"),
    ("outDir", .text "./dist"),
    ("rootDir", .text "./"),
    ("strict", .flag true),
    ("esModuleInterop", .flag true),
    ("skipLibCheck", .flag true),
    ("forceConsistentCasingInFileNames", .flag true),
    ("resolveJsonModule", .flag true),
    ("declaration", .flag true),
    ("sourceMap", .flag true)]),
  ("include", .list [.text "**/*"]),
  ("exclude", .list [.text "node_modules", .text "dist"])]

/-- The file with the settings of the compiler. -/
def compilerFile : String := Json.write compilerSettings ++ "\n"

/-- The entry point. -/
def entryPoint : String := String.join [
  "import express from 'express';\n",
  "import cors from 'cors';\n",
  "import dotenv from 'dotenv';\n",
  "import \x7b connectDB \x7d from './config/database';\n",
  "\n",
  "dotenv.config();\n",
  "\n",
  "const app = express();\n",
  "const PORT = process.env.PORT || 3000;\n",
  "\n",
  "app.use(cors());\n",
  "app.use(express.json());\n",
  "app.use(express.urlencoded(\x7b extended: true \x7d));\n",
  "\n",
  "// Mount converted routes from ./routes here.\n",
  "\n",
  "app.get('/health', (req, res) => \x7b\n",
  "  res.json(\x7b status: 'OK', timestamp: new Date().toISOString() \x7d);\n",
  "\x7d);\n",
  "\n",
  "app.use((err: Error, req: express.Request, res: express.Response, next: express.NextFunction) => \x7b\n",
  "  console.error(err.stack);\n",
  "  res.status(500).json(\x7b error: 'Something went wrong!' \x7d);\n",
  "\x7d);\n",
  "\n",
  "async function startServer() \x7b\n",
  "  try \x7b\n",
  "    await connectDB();\n",
  "    app.listen(PORT, () => \x7b\n",
  "      console.log(`Server running on port $\x7bPORT\x7d`);\n",
  "    \x7d);\n",
  "  \x7d catch (error) \x7b\n",
  "    console.error('Failed to start server:', error);\n",
  "    process.exit(1);\n",
  "  \x7d\n",
  "\x7d\n",
  "\n",
  "startServer();\n"]

/-- The connection to the data base. -/
def database : String := String.join [
  "import mongoose from 'mongoose';\n",
  "import dotenv from 'dotenv';\n",
  "\n",
  "dotenv.config();\n",
  "\n",
  "const MONGODB_URI = process.env.MONGODB_URI || 'mongodb://localhost:27017/converted_app';\n",
  "\n",
  "export const connectDB = async (): Promise<void> => \x7b\n",
  "  try \x7b\n",
  "    await mongoose.connect(MONGODB_URI);\n",
  "    console.log('MongoDB connected successfully');\n",
  "  \x7d catch (error) \x7b\n",
  "    console.error('MongoDB connection error:', error);\n",
  "    process.exit(1);\n",
  "  \x7d\n",
  "\x7d;\n",
  "\n",
  "export const disconnectDB = async (): Promise<void> => \x7b\n",
  "  await mongoose.disconnect();\n",
  "\x7d;\n"]

/-- The types that are shared with the data base. -/
def databaseTypes : String := String.join [
  "export interface BaseDocument \x7b\n",
  "  _id: string;\n",
  "  createdAt: Date;\n",
  "  updatedAt: Date;\n",
  "\x7d\n",
  "\n",
  "export interface ApiResponse<T = any> \x7b\n",
  "  success: boolean;\n",
  "  data?: T;\n",
  "  message?: string;\n",
  "  error?: string;\n",
  "\x7d\n",
  "\n",
  "export interface PaginationParams \x7b\n",
  "  page: number;\n",
  "  limit: number;\n",
  "  sort?: string;\n",
  "  order?: 'asc' | 'desc';\n",
  "\x7d\n"]

/-- The variables that a user has to set. -/
def environment : String := String.join [
  "# Application\n",
  "PORT=3000\n",
  "NODE_ENV=development\n",
  "\n",
  "# Database\n",
  "MONGODB_URI=mongodb://localhost:27017/your_database\n",
  "\n",
  "# JWT\n",
  "JWT_SECRET=your_jwt_secret_key_here\n",
  "JWT_EXPIRES_IN=7d\n",
  "\n",
  "# Logging\n",
  "LOG_LEVEL=info\n"]

/-- The notes for a user begin with the name of the project. -/
def notesLead : String := "# "

/-- The notes below the name. -/
def notesBody : String := String.join [
  "\n",
  "\n",
  "Automatically converted from PHP to Node.js/TypeScript.\n",
  "\n",
  "## Setup\n",
  "\n",
  "```bash\n",
  "npm install\n",
  "cp .env.example .env\n",
  "npm run dev\n",
  "```\n",
  "\n",
  "## Layout\n",
  "\n",
  "- `controllers/` - request handlers\n",
  "- `models/` - data models\n",
  "- `routes/` - route definitions\n",
  "- `middlewares/` - authentication and validation middleware\n",
  "- `config/` - database and application configuration\n",
  "- `utils/` - helpers and anything not classified elsewhere\n",
  "- `types/` - TypeScript type definitions\n",
  "- `services/` - business service layer\n",
  "\n",
  "Review every converted file before running it in production; sections that\n",
  "could not be converted are marked with `TODO: Handle <construct>`.\n"]

/-- The notes for a user. -/
def notes (projectName : String) : String := notesLead ++ projectName ++ notesBody

/-- All files with their paths, in the order in which they are written. -/
def files (projectName : String) : Table String := [
  ("index.ts", entryPoint),
  ("package.json", packageFile projectName),
  ("tsconfig.json", compilerFile),
  ("README.md", notes projectName),
  (".env.example", environment),
  ("config/database.ts", database),
  ("types/database.ts", databaseTypes)]

end PhpMigration.Boilerplate
